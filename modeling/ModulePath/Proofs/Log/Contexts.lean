import Mathlib.Data.List.Induction
import Mathlib.Data.List.Nodup
import ModulePath.Log.Registry

/-!
# Contexts that are merged

A key of a merged context has the value that the inner context gives it, and else the one of the
outer context (`Context.valueOf?_update`). Merging is associative: the context of a call may be
merged with the frame around it before it is merged with the others (`Context.update_update`).
-/

set_option autoImplicit false

namespace ModulePath.Log

namespace Context

variable {key key' : String} {value value' : Value} {outer inner c d : Context}

/-- The keys of a context, in order. -/
abbrev keys (c : Context) : List String := c.map (·.1)

/-! ## Values -/

theorem valueOf?_cons (e : String × Value) (c : Context) :
    valueOf? key (e :: c) = if e.1 = key then some e.2 else valueOf? key c := by
  unfold valueOf?
  by_cases h : e.1 = key
  · rw [if_pos h, List.find?_cons_of_pos (by simpa using h), Option.map_some]
  · rw [if_neg h, List.find?_cons_of_neg (by simpa using h)]

theorem valueOf?_eq_none (h : key ∉ c.keys) : valueOf? key c = none := by
  unfold valueOf?
  rw [Option.map_eq_none_iff, List.find?_eq_none]
  intro e he hkey
  exact h (List.mem_map.2 ⟨e, he, by simpa using hkey⟩)

/-- Among distinct keys every field is the value of its key. -/
theorem valueOf?_of_mem {e : String × Value} (h : c.keys.Nodup) (he : e ∈ c) :
    valueOf? e.1 c = some e.2 := by
  induction c with
  | nil => cases he
  | cons first rest ih =>
    obtain ⟨hfirst, hrest⟩ := List.nodup_cons.1 h
    rw [valueOf?_cons]
    rcases List.mem_cons.1 he with rfl | he
    · exact if_pos rfl
    · have hmem : e.1 ∈ keys rest := List.mem_map_of_mem he
      have hne : first.1 ≠ e.1 := ne_of_mem_of_not_mem hmem hfirst |>.symm
      rw [if_neg hne]
      exact ih hrest he

theorem mem_of_valueOf? (h : valueOf? key c = some value) : (key, value) ∈ c := by
  obtain ⟨e, hfind, rfl⟩ := Option.map_eq_some_iff.1 h
  have hkey : e.1 = key := by simpa using List.find?_some hfind
  rw [← hkey]
  exact List.mem_of_find?_eq_some hfind

/-- A context can be written if the values of its keys can be. -/
theorem hasText_iff (h : c.keys.Nodup) :
    c.hasText = true ↔ ∀ key v, valueOf? key c = some v → v.hasText = true := by
  rw [hasText, List.all_eq_true]
  constructor
  · intro hall key v hvalue
    exact hall (key, v) (mem_of_valueOf? hvalue)
  · intro hvalues e he
    exact hvalues e.1 e.2 (valueOf?_of_mem h he)

/-- A bound key has its new value, and the others keep theirs. -/
theorem valueOf?_bind (c : Context) :
    valueOf? key (bind key' value c) = if key' = key then some value else valueOf? key c := by
  induction c with
  | nil => rw [bind, valueOf?_cons]
  | cons e rest ih =>
    by_cases he : e.1 = key'
    · rw [bind, if_pos he, valueOf?_cons, valueOf?_cons, he]
      by_cases hkey : key' = key
      · rw [if_pos hkey, if_pos hkey]
      · rw [if_neg hkey, if_neg hkey, if_neg hkey]
    · rw [bind, if_neg he, valueOf?_cons, valueOf?_cons, ih]
      by_cases hkey : e.1 = key
      · rw [if_pos hkey, if_pos hkey, if_neg fun h => he (hkey.trans h.symm)]
      · rw [if_neg hkey, if_neg hkey]

theorem update_concat (outer inner : Context) (e : String × Value) :
    update outer (inner ++ [e]) = bind e.1 e.2 (update outer inner) := by
  rw [update, List.foldl_append]
  rfl

/-- What the inner context says about a key wins. -/
theorem valueOf?_update (outer inner : Context) :
    valueOf? key (update outer inner) =
      (valueOf? key (update [] inner)).or (valueOf? key outer) := by
  induction inner using List.reverseRecOn with
  | nil => rfl
  | append_singleton inner e ih =>
    rw [update_concat, update_concat, valueOf?_bind, valueOf?_bind, ih]
    by_cases hkey : e.1 = key
    · rw [if_pos hkey, if_pos hkey, Option.some_or]
    · rw [if_neg hkey, if_neg hkey]

/-! ## Keys -/

theorem keys_cons (e : String × Value) (c : Context) : keys (e :: c) = e.1 :: c.keys := rfl

theorem keys_append (c d : Context) : keys (c ++ d) = c.keys ++ d.keys := List.map_append

/-- A key that is bound keeps its place, and another one comes last. -/
theorem keys_bind (key : String) (value : Value) (c : Context) :
    (bind key value c).keys = if key ∈ c.keys then c.keys else c.keys ++ [key] := by
  induction c with
  | nil => rfl
  | cons e rest ih =>
    by_cases he : e.1 = key
    · rw [bind, if_pos he, keys_cons, keys_cons, he, if_pos List.mem_cons_self]
    · have hmem : key ∈ e.1 :: keys rest ↔ key ∈ keys rest :=
        List.mem_cons.trans (or_iff_right (Ne.symm he))
      rw [bind, if_neg he, keys_cons, keys_cons, ih]
      by_cases hkey : key ∈ keys rest
      · rw [if_pos hkey, if_pos (hmem.2 hkey)]
      · rw [if_neg hkey, if_neg (mt hmem.1 hkey), List.cons_append]

theorem mem_keys_bind : key ∈ (bind key' value c).keys ↔ key = key' ∨ key ∈ c.keys := by
  rw [keys_bind]
  by_cases h : key' ∈ c.keys
  · rw [if_pos h, or_iff_right_of_imp]
    rintro rfl
    exact h
  · rw [if_neg h, List.mem_append, List.mem_singleton]
    exact or_comm

/-- An update has the keys of both contexts. -/
theorem mem_keys_update :
    key ∈ (update outer inner).keys ↔ key ∈ outer.keys ∨ key ∈ inner.keys := by
  induction inner using List.reverseRecOn with
  | nil => simp [update]
  | append_singleton inner e ih =>
    rw [update_concat, mem_keys_bind, ih]
    simp only [keys, List.map_append, List.map_cons, List.map_nil, List.mem_append,
      List.mem_singleton]
    tauto

theorem mem_bind {e : String × Value} (h : e ∈ bind key value c) : e = (key, value) ∨ e ∈ c := by
  induction c with
  | nil => exact .inl (List.mem_singleton.1 h)
  | cons first rest ih =>
    by_cases hfirst : first.1 = key
    · rw [bind, if_pos hfirst] at h
      exact (List.mem_cons.1 h).imp_right (List.mem_cons_of_mem _)
    · rw [bind, if_neg hfirst] at h
      rcases List.mem_cons.1 h with rfl | h
      · exact .inr List.mem_cons_self
      · exact (ih h).imp_right (List.mem_cons_of_mem _)

theorem mem_update {e : String × Value} (h : e ∈ update outer inner) : e ∈ outer ∨ e ∈ inner := by
  induction inner using List.reverseRecOn with
  | nil => exact .inl h
  | append_singleton inner last ih =>
    rw [update_concat] at h
    rcases mem_bind h with rfl | h
    · exact .inr List.mem_concat_self
    · exact (ih h).imp_right (List.mem_append_left _)

theorem nodup_keys_bind (h : c.keys.Nodup) : (bind key value c).keys.Nodup := by
  rw [keys_bind]
  by_cases hkey : key ∈ c.keys
  · rw [if_pos hkey]
    exact h
  · rw [if_neg hkey, ← List.concat_eq_append]
    exact h.concat hkey

theorem nodup_keys_update (h : outer.keys.Nodup) : (update outer inner).keys.Nodup := by
  induction inner using List.reverseRecOn with
  | nil => exact h
  | append_singleton inner e ih =>
    rw [update_concat]
    exact nodup_keys_bind ih

/-! ## Merging twice -/

/-- A key that is bound already may be bound before or after another one. -/
theorem bind_comm (hne : key ≠ key') (hmem : key ∈ c.keys) :
    bind key value (bind key' value' c) = bind key' value' (bind key value c) := by
  induction c with
  | nil => cases hmem
  | cons e rest ih =>
    by_cases he : e.1 = key
    · have he' : e.1 ≠ key' := fun h => hne (he.symm.trans h)
      rw [bind, if_neg he', bind, if_pos he, bind, if_pos he, bind, if_neg hne]
    · have hrest : key ∈ keys rest := (List.mem_cons.1 hmem).resolve_left (Ne.symm he)
      by_cases he' : e.1 = key'
      · rw [bind, if_pos he', bind, if_neg (Ne.symm hne), bind, if_neg he, bind, if_pos he']
      · rw [bind, if_neg he', bind, if_neg he, bind, if_neg he, bind, if_neg he', ih hrest]

/-- What is bound last counts. -/
theorem bind_bind_self : bind key value (bind key value' c) = bind key value c := by
  induction c with
  | nil => simp [bind]
  | cons e rest ih =>
    by_cases he : e.1 = key
    · simp [bind, he]
    · rw [bind, if_neg he, bind, if_neg he, bind, if_neg he, ih]

/-- Binding a key may be put off until others are bound. -/
theorem update_bind (hmem : key ∈ outer.keys) (hnot : key ∉ inner.keys) :
    update (bind key value outer) inner = bind key value (update outer inner) := by
  induction inner using List.reverseRecOn with
  | nil => rfl
  | append_singleton inner e ih =>
    simp only [keys, List.map_append, List.mem_append, List.map_cons, List.map_nil,
      List.mem_singleton, not_or] at hnot
    rw [update_concat, update_concat, ih hnot.1]
    exact (bind_comm hnot.2 (mem_keys_update.2 (.inl hmem))).symm

/-- The induction is on the inner context: its first key is bound before all others. -/
theorem update_bind_inner (hnodup : inner.keys.Nodup) :
    update outer (bind key value inner) = bind key value (update outer inner) := by
  induction inner generalizing outer with
  | nil => rfl
  | cons e rest ih =>
    obtain ⟨hfirst, hrest⟩ := List.nodup_cons.1 hnodup
    have hcons (e : String × Value) (rest : Context) :
        update outer (e :: rest) = update (bind e.1 e.2 outer) rest := rfl
    by_cases he : e.1 = key
    -- either value of the key may be bound first: the later one is what remains
    · have hbound : key ∈ keys (bind e.1 e.2 outer) := mem_keys_bind.2 (.inl he.symm)
      rw [bind, if_pos he, hcons, hcons, ← update_bind hbound (he ▸ hfirst), he, bind_bind_self]
    · rw [bind, if_neg he, hcons, hcons, ih hrest]

/-- Updates may be put together before they are made. -/
theorem update_update (h : c.keys.Nodup) (outer d : Context) :
    update outer (update c d) = update (update outer c) d := by
  induction d using List.reverseRecOn with
  | nil => rfl
  | append_singleton d e ih =>
    rw [update_concat, update_concat, update_bind_inner (nodup_keys_update h), ih]

/-- Binding the keys of a context each once first makes no difference. -/
theorem update_update_nil (outer c : Context) : update outer (update [] c) = update outer c :=
  update_update (c := []) List.nodup_nil outer c

/-- A frame may be merged with the fields of a call before it is merged with the frames around
it. -/
theorem update_update_frame (outer frame fields : Context) :
    update outer (update (update [] frame) fields) = update (update outer frame) fields := by
  have hnodup : (update [] frame).keys.Nodup := nodup_keys_update List.nodup_nil
  rw [update_update hnodup, update_update_nil]

/-! ## Bindings in turn -/

theorem update_append (outer c d : Context) : update outer (c ++ d) = update (update outer c) d :=
  List.foldl_append

/-- A key stands where it is bound first. -/
theorem keys_update_nil (c : Context) : (update [] c).keys = c.keys.eraseDups := by
  induction c using List.reverseRecOn with
  | nil => rfl
  | append_singleton c e ih =>
    rw [update_concat, keys_bind, ih, keys_append, List.eraseDups_append]
    by_cases hkey : e.1 ∈ keys c
    · have hbound : (keys [e]).removeAll (keys c) = [] := by simp [keys, List.removeAll, hkey]
      rw [if_pos (List.mem_eraseDups.2 hkey), hbound, List.eraseDups_nil, List.append_nil]
    · have hnew : (keys [e]).removeAll (keys c) = [e.1] := by simp [keys, List.removeAll, hkey]
      rw [if_neg (mt List.mem_eraseDups.1 hkey), hnew]
      rfl

/-- A key has the value that it is given last. -/
theorem valueOf?_update_nil (c : Context) :
    valueOf? key (update [] c) = valueOf? key c.reverse := by
  induction c using List.reverseRecOn with
  | nil => rfl
  | append_singleton c e ih =>
    rw [update_concat, valueOf?_bind, ih, List.reverse_append, List.reverse_singleton,
      List.singleton_append, valueOf?_cons]

/-- Of the values that a key is given in turn, only the last has to be written. -/
theorem hasText_update_nil_iff (c : Context) : (update [] c).hasText = true ↔
    ∀ key v, valueOf? key c.reverse = some v → v.hasText = true := by
  have hnodup : (update [] c).keys.Nodup := nodup_keys_update List.nodup_nil
  rw [hasText_iff hnodup]
  simp only [valueOf?_update_nil]

/-- The frames are one context that is updated from the outermost frame on. -/
theorem ofFrames_eq_update (frames : List Context) :
    ofFrames frames = update [] frames.flatten := by
  rw [update, List.foldl_flatten]
  rfl

/-- The innermost frame updates the others. -/
theorem ofFrames_concat (frames : List Context) (c : Context) :
    ofFrames (frames ++ [c]) = update (ofFrames frames) c := by
  rw [ofFrames, List.foldl_append]
  rfl

end Context

end ModulePath.Log
