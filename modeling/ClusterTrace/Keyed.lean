/-!
# Tables in order of first arrival

A `Keyed` table holds one value for a key and lists its keys in the order in which they first
arrived: `insert` puts a new key at the end and writes a known one in its place.
-/

namespace ClusterTrace

/-- Pairs with distinct keys, in the order in which the keys first arrived. -/
structure Keyed (κ α : Type) where
  entries : List (κ × α)
  /-- No key occurs twice. -/
  nodup_keys : (entries.map Prod.fst).Nodup

namespace Keyed

variable {κ α β : Type} [DecidableEq κ]

/-! ## Writing to a list of pairs -/

/-- Writes a pair: in the place of the key, or at the end. -/
def put (k : κ) (v : α) : List (κ × α) → List (κ × α)
  | [] => [(k, v)]
  | e :: rest => if e.1 = k then (k, v) :: rest else e :: put k v rest

/-- Writing leaves the keys alone, but for a new one at the end. -/
theorem map_fst_put (k : κ) (v : α) (es : List (κ × α)) :
    (put k v es).map Prod.fst =
      if k ∈ es.map Prod.fst then es.map Prod.fst else es.map Prod.fst ++ [k] := by
  induction es with
  | nil => simp [put]
  | cons e rest ih =>
    by_cases h : e.1 = k
    · simp [put, h]
    · have h' : ¬ k = e.1 := fun hk => h hk.symm
      by_cases hr : k ∈ rest.map Prod.fst
      · rw [put, if_neg h, List.map_cons, ih, if_pos hr, List.map_cons,
          if_pos (List.mem_cons_of_mem _ hr)]
      · rw [put, if_neg h, List.map_cons, ih, if_neg hr, List.map_cons,
          if_neg (by simp only [List.mem_cons, not_or]; exact ⟨h', hr⟩)]
        rfl

theorem nodup_put (k : κ) (v : α) {es : List (κ × α)} (h : (es.map Prod.fst).Nodup) :
    ((put k v es).map Prod.fst).Nodup := by
  rw [map_fst_put]
  split
  · exact h
  · rename_i hk
    rw [List.nodup_append]
    refine ⟨h, by simp, ?_⟩
    intro a ha b hb
    simp only [List.mem_singleton] at hb
    rintro rfl
    exact hk (hb ▸ ha)

/-! ## Tables -/

/-- The table without keys. -/
def empty : Keyed κ α := ⟨[], List.nodup_nil⟩

instance : Inhabited (Keyed κ α) := ⟨empty⟩

omit [DecidableEq κ] in
/-- Tables with the same pairs are equal. -/
@[ext] theorem ext {t u : Keyed κ α} (h : t.entries = u.entries) : t = u := by
  cases t; cases u; cases h; rfl

instance [DecidableEq α] : DecidableEq (Keyed κ α) := fun t u =>
  if h : t.entries = u.entries then isTrue (ext h) else isFalse fun e => h (e ▸ rfl)

/-- The keys in order of first arrival. -/
def keys (t : Keyed κ α) : List κ := t.entries.map Prod.fst

/-- The values in the order of their keys. -/
def values (t : Keyed κ α) : List α := t.entries.map Prod.snd

/-- The number of keys. -/
def size (t : Keyed κ α) : Nat := t.entries.length

/-- The value of a key. -/
def get? (t : Keyed κ α) (k : κ) : Option α := (t.entries.find? fun e => e.1 = k).map Prod.snd

/-- The table has the key. -/
def contains (t : Keyed κ α) (k : κ) : Bool := t.entries.any fun e => e.1 = k

/-- Writes a value: in the place of the key, or at the end. -/
def insert (t : Keyed κ α) (k : κ) (v : α) : Keyed κ α :=
  ⟨put k v t.entries, nodup_put k v t.nodup_keys⟩

/-- Writes a value only if the key is new. The value is not computed otherwise. -/
def insertNew (t : Keyed κ α) (k : κ) (v : Unit → α) : Keyed κ α :=
  if t.contains k then t else t.insert k (v ())

/-- Writes pairs one after the other. -/
def ofList (es : List (κ × α)) : Keyed κ α := es.foldl (fun t e => t.insert e.1 e.2) empty

/-- The value that a function gives to each of some keys, which may repeat. -/
def tabulate (ks : List κ) (f : κ → α) : Keyed κ α :=
  ks.foldl (fun t k => t.insertNew k fun _ => f k) empty

/-- The table with a function applied to every value. -/
def map (t : Keyed κ α) (f : κ → α → β) : Keyed κ β where
  entries := t.entries.map fun e => (e.1, f e.1 e.2)
  nodup_keys := by
    have h := t.nodup_keys
    rw [List.map_map]
    exact h

/-! ## What writing does to the keys and the values -/

omit [DecidableEq κ] in
@[simp] theorem keys_empty : (empty : Keyed κ α).keys = [] := rfl

theorem keys_insert (t : Keyed κ α) (k : κ) (v : α) :
    (t.insert k v).keys = if k ∈ t.keys then t.keys else t.keys ++ [k] :=
  map_fst_put k v t.entries

omit [DecidableEq κ] in
theorem nodup (t : Keyed κ α) : t.keys.Nodup := t.nodup_keys

theorem find?_put (k k' : κ) (v : α) (es : List (κ × α)) :
    ((put k v es).find? fun e => e.1 = k').map Prod.snd =
      if k = k' then some v else (es.find? fun e => e.1 = k').map Prod.snd := by
  induction es with
  | nil => by_cases h : k = k' <;> simp [put, h]
  | cons e rest ih =>
    by_cases he : e.1 = k
    · by_cases h : k = k' <;> simp [put, he, h]
    · simp only [put, he, if_false, List.find?_cons]
      by_cases h : e.1 = k'
      · have hk : ¬ k = k' := fun hk => he (h.trans hk.symm)
        simp [h, hk]
      · simpa only [h, decide_false] using ih

/-- The value written is there, and the other keys keep theirs. -/
theorem get?_insert (t : Keyed κ α) (k k' : κ) (v : α) :
    (t.insert k v).get? k' = if k = k' then some v else t.get? k' :=
  find?_put k k' v t.entries

end Keyed

end ClusterTrace
