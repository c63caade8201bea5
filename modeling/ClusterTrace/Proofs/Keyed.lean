import ClusterTrace.Keyed
import Mathlib.Data.List.Induction
import Mathlib.Data.List.Nodup

/-!
# Tables, their keys and their look-ups

A table is determined by its keys, in their order, and by what is found under them. The tables that
are filled from a list of keys have the keys of the list in the order of their first occurrence.
-/

namespace ClusterTrace

/-- One more element is appended by `eraseDups` if it is new. -/
theorem eraseDups_concat {κ : Type} [DecidableEq κ] (ks : List κ) (k : κ) :
    (ks ++ [k]).eraseDups = if k ∈ ks then ks.eraseDups else ks.eraseDups ++ [k] := by
  rw [List.eraseDups_append]
  by_cases h : k ∈ ks
  · simp [List.removeAll, h]
  · simp [List.removeAll, h, List.eraseDups_cons]

namespace Keyed

variable {κ α β : Type} [DecidableEq κ]

/-! ## Look-ups -/

theorem contains_iff {t : Keyed κ α} {k : κ} : t.contains k = true ↔ k ∈ t.keys := by
  simp [contains, keys]

/-- What is found under a key is an entry of the table. -/
theorem mem_entries_of_get? {t : Keyed κ α} {k : κ} {v : α} (h : t.get? k = some v) :
    (k, v) ∈ t.entries := by
  obtain ⟨e, he, rfl⟩ := Option.map_eq_some_iff.mp h
  have hk : e.1 = k := by simpa using List.find?_some he
  rw [← hk]
  exact List.mem_of_find?_eq_some he

/-- A look-up fails only for keys that are not in the table. -/
theorem get?_eq_none_iff {t : Keyed κ α} {k : κ} : t.get? k = none ↔ k ∉ t.keys := by
  simp only [get?, keys, Option.map_eq_none_iff, List.find?_eq_none, decide_eq_true_eq,
    List.mem_map, not_exists, not_and]

/-- Every entry is found under its key, since the keys are distinct. -/
theorem get?_eq_some_iff {t : Keyed κ α} {k : κ} {v : α} :
    t.get? k = some v ↔ (k, v) ∈ t.entries := by
  refine ⟨mem_entries_of_get?, fun h => ?_⟩
  have hk : k ∈ t.keys := List.mem_map_of_mem h
  cases hv : t.get? k with
  | none => exact absurd hk (get?_eq_none_iff.mp hv)
  | some w =>
    have hw := mem_entries_of_get? hv
    have := List.inj_on_of_nodup_map t.nodup_keys hw h rfl
    rw [(Prod.mk.inj this).2]

/-- Tables with the same keys in the same order and the same look-ups are equal. -/
theorem ext_get? {t u : Keyed κ α} (hkeys : t.keys = u.keys) (hget : ∀ k, t.get? k = u.get? k) :
    t = u := by
  have hall : ∀ (t : Keyed κ α), t.entries.map some =
      t.keys.map fun k => (t.get? k).map fun v => (k, v) := by
    intro t
    rw [keys, List.map_map]
    refine List.map_congr_left fun e he => ?_
    rw [Function.comp, get?_eq_some_iff.mpr (show (e.1, e.2) ∈ t.entries from he)]
    rfl
  refine ext (List.map_injective_iff.mpr (fun _ _ h => Option.some.inj h) ?_)
  rw [hall t, hall u, hkeys]
  exact List.map_congr_left fun k _ => by rw [hget]

theorem mem_keys_insert {t : Keyed κ α} {k k' : κ} {v : α} :
    k' ∈ (t.insert k v).keys ↔ k' ∈ t.keys ∨ k' = k := by
  rw [keys_insert]
  split
  · rename_i h
    exact ⟨Or.inl, fun hk => hk.elim id fun heq => heq ▸ h⟩
  · rw [List.mem_append, List.mem_singleton]

theorem mem_keys_of_get? {t : Keyed κ α} {k : κ} {v : α} (h : t.get? k = some v) : k ∈ t.keys :=
  List.mem_map_of_mem (mem_entries_of_get? h)

/-- A key is found at most once among the entries of a table. -/
theorem filter_entries (t : Keyed κ α) (k : κ) :
    (t.entries.filter fun e => e.1 = k) = ((t.get? k).map fun v => (k, v)).toList := by
  obtain ⟨entries, nodup⟩ := t
  unfold get?
  induction entries with
  | nil => rfl
  | cons e rest ih =>
    obtain ⟨hnew, hrest⟩ := List.nodup_cons.mp nodup
    by_cases hk : e.1 = k
    · subst hk
      have hnone : (rest.filter fun e' => e'.1 = e.1) = [] := by
        rw [List.filter_eq_nil_iff]
        intro e' he' heq
        exact hnew (List.mem_map.mpr ⟨e', he', of_decide_eq_true heq⟩)
      simp [hnone]
    · simpa [hk] using ih hrest

/-! ## What is written -/

theorem keys_prefix_insert (t : Keyed κ α) (k : κ) (v : α) : t.keys <+: (t.insert k v).keys := by
  rw [keys_insert]
  split
  · exact List.prefix_refl _
  · exact List.prefix_append _ _

/-- Only a new key changes the keys. -/
theorem keys_insert_eq_iff {t : Keyed κ α} {k : κ} {v : α} :
    (t.insert k v).keys = t.keys ↔ k ∈ t.keys := by
  rw [keys_insert]
  split
  · rename_i h
    exact iff_of_true rfl h
  · rename_i h
    exact iff_of_false (fun heq => List.cons_ne_nil k [] (List.append_right_eq_self.mp heq)) h

/-- Writing what is there already changes nothing. -/
theorem insert_of_get? {t : Keyed κ α} {k : κ} {v : α} (h : t.get? k = some v) :
    t.insert k v = t := by
  have hk : k ∈ t.keys := mem_keys_of_get? h
  refine ext_get? ?_ fun k' => ?_
  · rw [keys_insert, if_pos hk]
  · rw [get?_insert]
    by_cases hkk : k = k'
    · subst hkk
      rw [if_pos rfl, h]
    · rw [if_neg hkk]

/-- A new key comes last. -/
theorem put_of_not_mem {k : κ} {es : List (κ × α)} (h : k ∉ es.map Prod.fst) (v : α) :
    put k v es = es ++ [(k, v)] := by
  induction es with
  | nil => rfl
  | cons e es ih =>
    simp only [List.map_cons, List.mem_cons, not_or] at h
    have hne : ¬ e.1 = k := fun heq => h.1 heq.symm
    rw [put, if_neg hne, ih h.2, List.cons_append]

theorem entries_insert_of_not_mem {t : Keyed κ α} {k : κ} (h : k ∉ t.keys) (v : α) :
    (t.insert k v).entries = t.entries ++ [(k, v)] :=
  put_of_not_mem h v

omit [DecidableEq κ] in
theorem keys_map (t : Keyed κ α) (g : κ → α → β) : (t.map g).keys = t.keys := by
  simp [keys, map, Function.comp_def]

/-- A look-up in the changed table finds the changed value. -/
theorem get?_map (t : Keyed κ α) (g : κ → α → β) (k : κ) :
    (t.map g).get? k = (t.get? k).map (g k) := by
  unfold get? map
  rw [List.find?_map, Option.map_map, Option.map_map]
  cases hf : t.entries.find? ((fun e => decide (e.1 = k)) ∘ fun e => (e.1, g e.1 e.2)) with
  | none =>
    have hf' : t.entries.find? (fun e => decide (e.1 = k)) = none := hf
    rw [hf']
    rfl
  | some e =>
    have hf' : t.entries.find? (fun e => decide (e.1 = k)) = some e := hf
    have hk : e.1 = k := by simpa using List.find?_some hf'
    rw [hf', ← hk]
    rfl

/-- Writing under a key of the table changes its value there. -/
theorem insert_eq_map {t : Keyed κ α} {k : κ} {v : α} (h : t.get? k = some v) (g : α → α) :
    t.insert k (g v) = t.map fun k' v' => if k' = k then g v' else v' := by
  have hk : k ∈ t.keys := mem_keys_of_get? h
  refine ext_get? ?_ fun k' => ?_
  · rw [keys_insert, if_pos hk, keys_map]
  · rw [get?_insert, get?_map]
    by_cases hkk : k = k'
    · subst hkk
      simp [h]
    · have hkk' : ¬ k' = k := fun heq => hkk heq.symm
      simp [hkk, hkk']

/-- Two keys can be written in either order, unless both are new: then the first one written stands
first. -/
theorem insert_comm_iff {t : Keyed κ α} {k k' : κ} (hne : k ≠ k') (v v' : α) :
    (t.insert k v).insert k' v' = (t.insert k' v').insert k v ↔ ¬ (k ∉ t.keys ∧ k' ∉ t.keys) := by
  constructor
  · rintro heq ⟨hk, hk'⟩
    have hkeys := congrArg keys heq
    have hkNext : k ∉ t.keys ++ [k'] := by simp [hk, hne]
    have hkNext' : k' ∉ t.keys ++ [k] := by simp [hk', hne.symm]
    rw [keys_insert, keys_insert, if_neg hk, if_neg hkNext', keys_insert, keys_insert, if_neg hk',
      if_neg hkNext, List.append_assoc, List.append_assoc, List.append_cancel_left_eq] at hkeys
    exact hne (List.cons.inj hkeys).1
  · intro hknown
    refine ext_get? ?_ fun k'' => ?_
    · have hold : k ∈ t.keys ∨ k' ∈ t.keys := by
        by_contra h
        exact hknown (not_or.mp h)
      simp only [keys_insert]
      by_cases hk : k ∈ t.keys <;> by_cases hk' : k' ∈ t.keys <;> simp_all
    · rw [get?_insert, get?_insert, get?_insert, get?_insert]
      by_cases hk : k = k''
      · have hk' : ¬ k' = k'' := fun h => hne (hk.trans h.symm)
        rw [if_neg hk', if_pos hk, if_pos hk]
      · rw [if_neg hk, if_neg hk]

/-! ## Tables filled from a list of keys -/

/-- A key that is known already keeps its place and its value. -/
theorem keys_insertNew (t : Keyed κ α) (k : κ) (v : Unit → α) :
    (t.insertNew k v).keys = if k ∈ t.keys then t.keys else t.keys ++ [k] := by
  unfold insertNew
  split
  · rename_i h
    rw [if_pos (contains_iff.mp h)]
  · exact keys_insert t k (v ())

/-- Only a new key is given the value. -/
theorem get?_insertNew (t : Keyed κ α) (k k' : κ) (v : Unit → α) :
    (t.insertNew k v).get? k' = if k = k' ∧ k ∉ t.keys then some (v ()) else t.get? k' := by
  unfold insertNew
  by_cases h : k ∈ t.keys
  · rw [if_pos (contains_iff.mpr h), if_neg (fun hh => hh.2 h)]
  · rw [if_neg (fun hh => h (contains_iff.mp hh)), get?_insert]
    simp only [h, not_false_eq_true, and_true]

theorem tabulate_concat (ks : List κ) (k : κ) (f : κ → α) :
    tabulate (ks ++ [k]) f = (tabulate ks f).insertNew k fun _ => f k := by
  simp [tabulate, List.foldl_append]

/-- The keys are listed in the order of their first occurrence. -/
theorem keys_tabulate (ks : List κ) (f : κ → α) : (tabulate ks f).keys = ks.eraseDups := by
  induction ks using List.reverseRecOn with
  | nil => rfl
  | append_singleton ks k ih =>
    rw [tabulate_concat, keys_insertNew, ih, eraseDups_concat]
    simp only [List.mem_eraseDups]

/-- Each listed key has the value of the function, however often it is listed. -/
theorem get?_tabulate (ks : List κ) (f : κ → α) (k : κ) :
    (tabulate ks f).get? k = if k ∈ ks then some (f k) else none := by
  induction ks using List.reverseRecOn with
  | nil => rfl
  | append_singleton ks a ih =>
    rw [tabulate_concat, get?_insertNew, ih, keys_tabulate]
    simp only [List.mem_eraseDups, List.mem_append, List.mem_singleton]
    by_cases hak : a = k
    · subst hak
      by_cases ha : a ∈ ks <;> simp [ha]
    · have hka : ¬ k = a := fun h => hak h.symm
      simp [hak, hka]

/-- Each key of the table is listed and has the value of the function. -/
theorem mem_entries_tabulate {ks : List κ} {f : κ → α} {e : κ × α}
    (h : e ∈ (tabulate ks f).entries) : e.1 ∈ ks ∧ e.2 = f e.1 := by
  have hget := get?_eq_some_iff.mpr (show (e.1, e.2) ∈ (tabulate ks f).entries from h)
  rw [get?_tabulate] at hget
  by_cases hk : e.1 ∈ ks
  · rw [if_pos hk, Option.some.injEq] at hget
    exact ⟨hk, hget.symm⟩
  · rw [if_neg hk] at hget
    cases hget

/-- Writing under a listed key changes the function there. -/
theorem insert_tabulate {ks : List κ} {k : κ} (hk : k ∈ ks) (f : κ → α) (v : α) :
    (tabulate ks f).insert k v = tabulate ks (Function.update f k v) := by
  have hmem : k ∈ (tabulate ks f).keys := by rw [keys_tabulate]; exact List.mem_eraseDups.mpr hk
  refine ext_get? ?_ fun k' => ?_
  · rw [keys_insert, if_pos hmem, keys_tabulate, keys_tabulate]
  · rw [get?_insert, get?_tabulate, get?_tabulate]
    by_cases hkk : k = k'
    · subst hkk
      simp [hk]
    · have hk' : k' ≠ k := fun h => hkk h.symm
      simp [hkk, Function.update_of_ne hk']

/-- Changing the values of such a table is changing the function. -/
theorem map_tabulate (ks : List κ) (f : κ → α) (g : κ → α → β) :
    (tabulate ks f).map g = tabulate ks fun k => g k (f k) := by
  refine ext_get? ?_ fun k => ?_
  · rw [keys_map, keys_tabulate, keys_tabulate]
  · rw [get?_map, get?_tabulate, get?_tabulate]
    split <;> rfl

end Keyed

end ClusterTrace
