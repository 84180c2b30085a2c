import ModulePath.Glob.Token

/-!
# Cutting a glob into tokens

`Tokenised cs ts` is the rule by which a glob is read: from left to right, each token as long as it
can be, and a `**` before a `*`. The function `tokens` works from the end of the glob and joins runs
as it goes; it computes exactly this relation (`tokenised_iff`). So every glob has one list of
tokens, and the texts of the tokens put together are the glob. Two globs that are put together keep
their tokens if the last token of the first one ends where the second one begins
(`Tokenised.append`).
-/

set_option autoImplicit false

namespace ModulePath.Glob

/-- Whether a character has no meaning of its own in a glob. -/
def isOrdinary (c : Char) : Bool := c != '*' && c != '?' && c != '\\' && c != '/'

/-- Whether a token ends where `rest` begins: a longer token, or one that goes before it, cannot be
read there. -/
def Token.EndsBefore (rest : List Char) : Token → Prop
  | .anything => True
  | .segment => rest.head? ≠ some '*'
  | .one => True
  | .escaped _ => True
  | .separators _ => rest.head? ≠ some '/'
  | .literal first more =>
    (∀ c ∈ first :: more, isOrdinary c = true) ∧ ∀ c ∈ rest.head?, isOrdinary c = false
  | .backslash => rest = []

/-- A text is cut into tokens from left to right. -/
inductive Tokenised : List Char → List Token → Prop
  | nil : Tokenised [] []
  | cons {t : Token} {rest : List Char} {ts : List Token} :
      t.EndsBefore rest → Tokenised rest ts → Tokenised (t.text ++ rest) (t :: ts)

theorem ne_of_isOrdinary {c : Char} (h : isOrdinary c = true) :
    c ≠ '*' ∧ c ≠ '?' ∧ c ≠ '\\' ∧ c ≠ '/' := by
  simpa [isOrdinary, and_assoc] using h

theorem isOrdinary_of_ne {c : Char} (h₁ : c ≠ '*') (h₂ : c ≠ '?') (h₃ : c ≠ '\\') (h₄ : c ≠ '/') :
    isOrdinary c = true := by
  simp [isOrdinary, h₁, h₂, h₃, h₄]

/-- The characters of a literal run are ordinary ones. -/
theorem Tokenised.isOrdinary_of_mem {cs : List Char} {ts : List Token} (h : Tokenised cs ts)
    {first : Char} {more : List Char} (hmem : .literal first more ∈ ts) :
    ∀ c ∈ first :: more, isOrdinary c = true := by
  induction h with
  | nil => cases hmem
  | @cons t rest ts ht hts ih =>
    rcases List.mem_cons.1 hmem with rfl | hmem
    · exact ht.1
    · exact ih hmem

/-! ## From the beginning of a glob -/

/-- Induction over a glob by what it begins with. -/
@[elab_as_elim]
theorem induct {motive : List Char → Prop} (hnil : motive [])
    (hanything : ∀ rest, motive rest → motive ('*' :: '*' :: rest))
    (hsegment : ∀ rest, rest.head? ≠ some '*' → motive rest → motive ('*' :: rest))
    (hone : ∀ rest, motive rest → motive ('?' :: rest)) (hbackslash : motive ['\\'])
    (hescaped : ∀ c rest, motive rest → motive ('\\' :: c :: rest))
    (hseparator : ∀ rest, motive rest → motive ('/' :: rest))
    (hliteral : ∀ c rest, isOrdinary c = true → motive rest → motive (c :: rest))
    (cs : List Char) : motive cs := by
  fun_induction tokens cs with
  | case1 => exact hnil
  | case2 rest ih => exact hanything rest ih
  | case3 rest hstar ih =>
    refine hsegment rest (fun hhead => ?_) ih
    obtain ⟨more, rfl⟩ := List.head?_eq_some_iff.1 hhead
    exact hstar more rfl
  | case4 rest ih => exact hone rest ih
  | case5 => exact hbackslash
  | case6 c rest ih => exact hescaped c rest ih
  | case7 rest ih => exact hseparator rest ih
  | case8 c rest _ hstar hquestion hlone hescape hslash ih =>
    -- a backslash is either the last character or has one after it
    have hback : c ≠ '\\' := by
      intro h
      cases rest with
      | nil => exact hlone h rfl
      | cons d more => exact hescape d more h rfl
    exact hliteral c rest (isOrdinary_of_ne hstar hquestion hback hslash) ih

theorem tokens_segment {rest : List Char} (h : rest.head? ≠ some '*') :
    tokens ('*' :: rest) = .segment :: tokens rest := by
  have hstar : ∀ more, rest ≠ '*' :: more := by
    rintro more rfl
    exact h rfl
  simp [tokens]

@[simp] theorem tokens_escaped (c : Char) (rest : List Char) :
    tokens ('\\' :: c :: rest) = .escaped c :: tokens rest := by
  simp [tokens]

/-- An ordinary character is pushed to what follows it. -/
theorem tokens_cons_of_isOrdinary {c : Char} (h : isOrdinary c = true) (rest : List Char) :
    tokens (c :: rest) = pushLiteral c (tokens rest) := by
  obtain ⟨hstar, hone, hback, hslash⟩ := ne_of_isOrdinary h
  simp [tokens, hstar, hback]

/-! ## Joining runs -/

/-- Only a run of separators begins with a separator. -/
theorem Token.head?_text_ne_separator {t : Token} {rest : List Char} (ht : t.EndsBefore rest)
    (h : ∀ more, t ≠ .separators more) : (t.text ++ rest).head? ≠ some '/' := by
  cases t with
  | anything => simp [text]
  | segment => simp [text]
  | one => simp [text]
  | escaped c => simp [text]
  | separators more => exact absurd rfl (h more)
  | literal first more =>
    have hf := ne_of_isOrdinary (ht.1 first List.mem_cons_self)
    simpa [text] using hf.2.2.2
  | backslash => simp [text]

/-- A separator before a text joins the run of separators that the text begins with. -/
theorem Tokenised.pushSeparator {cs : List Char} {ts : List Token} (h : Tokenised cs ts) :
    Tokenised ('/' :: cs) (Glob.pushSeparator ts) := by
  cases h with
  | nil => exact .cons (t := .separators 0) (by simp [Token.EndsBefore]) .nil
  | @cons t rest ts ht hts =>
    by_cases hsep : ∃ more, t = .separators more
    · obtain ⟨more, rfl⟩ := hsep
      exact .cons (t := .separators (more + 1)) ht hts
    · simp only [not_exists] at hsep
      have hpush : Glob.pushSeparator (t :: ts) = .separators 0 :: t :: ts := by
        cases t with
        | separators more => exact absurd rfl (hsep more)
        | anything | segment | one | escaped _ | literal _ _ | backslash => rfl
      rw [hpush]
      exact .cons (t := .separators 0) (Token.head?_text_ne_separator ht hsep) (.cons ht hts)

/-- Only a run of ordinary characters begins with one. -/
theorem Token.head?_text_not_isOrdinary {t : Token} {rest : List Char}
    (h : ∀ first more, t ≠ .literal first more) :
    ∀ c ∈ (t.text ++ rest).head?, isOrdinary c = false := by
  cases t with
  | literal first more => exact absurd rfl (h first more)
  | anything | segment | one | escaped _ | separators _ | backslash =>
    simp [text, isOrdinary, List.replicate_succ]

/-- An ordinary character before a text joins the literal run that the text begins with. -/
theorem Tokenised.pushLiteral {c : Char} {cs : List Char} {ts : List Token}
    (hc : isOrdinary c = true) (h : Tokenised cs ts) :
    Tokenised (c :: cs) (Glob.pushLiteral c ts) := by
  have halone : ∀ d ∈ [c], isOrdinary d = true := by simpa using hc
  cases h with
  | nil => exact .cons (t := .literal c []) ⟨halone, by simp⟩ .nil
  | @cons t rest ts ht hts =>
    by_cases hlit : ∃ first more, t = .literal first more
    · obtain ⟨first, more, rfl⟩ := hlit
      have hall : ∀ d ∈ c :: first :: more, isOrdinary d = true :=
        List.forall_mem_cons.2 ⟨hc, ht.1⟩
      exact .cons (t := .literal c (first :: more)) ⟨hall, ht.2⟩ hts
    · simp only [not_exists] at hlit
      have hpush : Glob.pushLiteral c (t :: ts) = .literal c [] :: t :: ts := by
        cases t with
        | literal first more => exact absurd rfl (hlit first more)
        | anything | segment | one | escaped _ | separators _ | backslash => rfl
      rw [hpush]
      exact .cons (t := .literal c []) ⟨halone, Token.head?_text_not_isOrdinary hlit⟩
        (.cons ht hts)

/-- The function cuts by the rule. -/
theorem tokenised_tokens (cs : List Char) : Tokenised cs (tokens cs) := by
  induction cs using induct with
  | hnil => exact .nil
  | hanything rest ih => exact .cons (t := .anything) trivial ih
  | hsegment rest hnext ih =>
    rw [tokens_segment hnext]
    exact .cons (t := .segment) hnext ih
  | hone rest ih => exact .cons (t := .one) trivial ih
  | hbackslash => exact .cons (t := .backslash) rfl .nil
  | hescaped c rest ih => exact .cons (t := .escaped c) trivial ih
  | hseparator rest ih => exact ih.pushSeparator
  | hliteral c rest hc ih =>
    rw [tokens_cons_of_isOrdinary hc]
    exact ih.pushLiteral hc

/-! ## The relation has one list of tokens for each text -/

/-- A separator before something else is a run of its own. -/
theorem pushSeparator_tokens {rest : List Char} (h : rest.head? ≠ some '/') :
    pushSeparator (tokens rest) = .separators 0 :: tokens rest := by
  have hrest := tokenised_tokens rest
  generalize tokens rest = ts at hrest ⊢
  cases hrest with
  | nil => rfl
  | @cons t rest ts ht hts =>
    cases t with
    | separators more => simp [Token.text, List.replicate_succ] at h
    | anything | segment | one | escaped _ | literal _ _ | backslash => rfl

/-- An ordinary character before something else is a literal of its own. -/
theorem pushLiteral_tokens {c : Char} {rest : List Char}
    (h : ∀ d ∈ rest.head?, isOrdinary d = false) :
    pushLiteral c (tokens rest) = .literal c [] :: tokens rest := by
  have hrest := tokenised_tokens rest
  generalize tokens rest = ts at hrest ⊢
  cases hrest with
  | nil => rfl
  | @cons t rest ts ht hts =>
    cases t with
    | literal first more =>
      have hfirst := h first (by simp [Token.text])
      rw [ht.1 first List.mem_cons_self] at hfirst
      contradiction
    | anything | segment | one | escaped _ | separators _ | backslash => rfl

/-- A run of separators is one token. -/
theorem tokens_separators {rest : List Char} (h : rest.head? ≠ some '/') (more : Nat) :
    tokens (List.replicate (more + 1) '/' ++ rest) = .separators more :: tokens rest := by
  induction more with
  | zero => exact pushSeparator_tokens h
  | succ more ih =>
    have hcons : tokens (List.replicate (more + 2) '/' ++ rest) =
        pushSeparator (tokens (List.replicate (more + 1) '/' ++ rest)) := rfl
    rw [hcons, ih, pushSeparator]

/-- A run of ordinary characters is one token. -/
theorem tokens_literal {first : Char} {more rest : List Char}
    (hall : ∀ c ∈ first :: more, isOrdinary c = true)
    (hnext : ∀ c ∈ rest.head?, isOrdinary c = false) :
    tokens (first :: more ++ rest) = .literal first more :: tokens rest := by
  have hfirst := hall first List.mem_cons_self
  rw [List.cons_append, tokens_cons_of_isOrdinary hfirst]
  induction more generalizing first with
  | nil => exact pushLiteral_tokens hnext
  | cons c more ih =>
    have htail : ∀ d ∈ c :: more, isOrdinary d = true := fun d hd =>
      hall d (List.mem_cons_of_mem _ hd)
    have hc := htail c List.mem_cons_self
    rw [List.cons_append, tokens_cons_of_isOrdinary hc, ih htail hc, pushLiteral]

/-- A token that ends before `rest` is the first one of its text followed by `rest`. -/
theorem tokens_text_append {t : Token} {rest : List Char} (h : t.EndsBefore rest) :
    tokens (t.text ++ rest) = t :: tokens rest := by
  cases t with
  | anything => rfl
  | segment => exact tokens_segment h
  | one => rfl
  | escaped c => exact tokens_escaped c rest
  | separators more => exact tokens_separators h more
  | literal first more => exact tokens_literal h.1 h.2
  | backslash =>
    cases h
    rfl

/-- A text has one list of tokens only. -/
theorem Tokenised.eq_tokens {cs : List Char} {ts : List Token} (h : Tokenised cs ts) :
    ts = tokens cs := by
  induction h with
  | nil => rfl
  | cons ht _ ih => rw [tokens_text_append ht, ← ih]

/-- `tokens` computes the rule. -/
theorem tokenised_iff {cs : List Char} {ts : List Token} :
    Tokenised cs ts ↔ ts = tokens cs := by
  constructor
  · exact Tokenised.eq_tokens
  · rintro rfl
    exact tokenised_tokens cs

/-! ## Globs one after another -/

theorem Tokenised.eq_nil {cs : List Char} (h : Tokenised cs []) : cs = [] := by
  cases h
  rfl

/-- What begins like the text after a token leaves the token as it is. -/
theorem Token.EndsBefore.append {t : Token} {cs : List Char} (h : t.EndsBefore cs) (hcs : cs ≠ [])
    (ds : List Char) : t.EndsBefore (cs ++ ds) := by
  obtain ⟨c, rest, rfl⟩ := List.exists_cons_of_ne_nil hcs
  -- a token looks at one character after it at most
  cases t with
  | backslash => cases h
  | anything | segment | one | escaped _ | separators _ | literal _ _ => exact h

/-- The last token ends where the text does. -/
theorem Tokenised.endsBefore_nil {cs : List Char} {ts : List Token} (h : Tokenised cs ts) :
    ∀ t ∈ ts.getLast?, t.EndsBefore [] := by
  induction h with
  | nil => simp
  | @cons t rest ts ht hts ih =>
    cases ts with
    | nil =>
      obtain rfl := hts.eq_nil
      simpa using ht
    | cons u us =>
      rw [List.getLast?_cons_cons]
      exact ih

/-- Texts that meet where the last token of the first one ends keep their tokens when they are put
together. -/
theorem Tokenised.append {cs ds : List Char} {ts us : List Token} (h : Tokenised cs ts)
    (h' : Tokenised ds us) (hseam : ∀ t ∈ ts.getLast?, t.EndsBefore ds) :
    Tokenised (cs ++ ds) (ts ++ us) := by
  induction h with
  | nil => exact h'
  | @cons t rest ts ht hts ih =>
    rw [List.append_assoc, List.cons_append]
    cases ts with
    | nil =>
      obtain rfl := hts.eq_nil
      exact .cons (hseam t rfl) h'
    | cons u us =>
      have hrest : rest ≠ [] := by
        rintro rfl
        cases tokenised_iff.1 hts
      rw [List.getLast?_cons_cons] at hseam
      exact .cons (ht.append hrest ds) (ih hseam)

end ModulePath.Glob
