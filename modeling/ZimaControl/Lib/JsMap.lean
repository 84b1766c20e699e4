import Mathlib.Data.List.Nodup
import Mathlib.Tactic.Common

/-!
# Insertion-ordered maps

The JavaScript `Map`: entries in insertion order, no key twice. `set` on a present key keeps the
entry's place, `set` on an absent key appends, `delete` removes the entry. The order matters only to
code that walks `values`.
-/

namespace ZimaControl

open List

/-- A finite map that remembers the order in which its keys were first set. -/
structure JsMap (κ ν : Type) where
  /-- The entries, oldest first. -/
  entries : List (κ × ν)
  /-- No key has two entries. -/
  nodup : (entries.map Prod.fst).Nodup

namespace JsMap

variable {κ ν : Type}

/-- The empty map. -/
def empty : JsMap κ ν := ⟨[], nodup_nil⟩

instance : EmptyCollection (JsMap κ ν) := ⟨empty⟩

/-- The values in insertion order. -/
def values (m : JsMap κ ν) : List ν := m.entries.map Prod.snd

variable [DecidableEq κ]

/-- The value of the first entry at `k`. -/
def lookup (k : κ) : List (κ × ν) → Option ν
  | [] => none
  | e :: es => if e.1 = k then some e.2 else lookup k es

/-- The value at `k`, if any. -/
def get (m : JsMap κ ν) (k : κ) : Option ν := lookup k m.entries

/-- Whether `k` has an entry. -/
def has (m : JsMap κ ν) (k : κ) : Bool := (m.get k).isSome

/-- The value at `k` replaced, or a new entry at the end. -/
def setEntries (k : κ) (v : ν) : List (κ × ν) → List (κ × ν)
  | [] => [(k, v)]
  | e :: es => if e.1 = k then (k, v) :: es else e :: setEntries k v es

variable (k : κ) (v : ν)

/-- The keys after `setEntries`: `k` is appended when it was absent. -/
theorem map_fst_setEntries (es : List (κ × ν)) : (setEntries k v es).map Prod.fst =
      if k ∈ es.map Prod.fst then es.map Prod.fst else es.map Prod.fst ++ [k] := by
  induction es with
  | nil => simp [setEntries]
  | cons e es ih =>
    rw [setEntries]
    by_cases h : e.1 = k
    · simp [h]
    · have hk : k ≠ e.1 := fun hk => h hk.symm
      simp only [h, if_false, map_cons, ih, mem_cons, hk, false_or]
      split_ifs <;> simp

/-- Sets the value at `k`. -/
def set (m : JsMap κ ν) (k : κ) (v : ν) : JsMap κ ν where
  entries := setEntries k v m.entries
  nodup := by
    rw [map_fst_setEntries]
    split_ifs with h
    · exact m.nodup
    · exact nodup_append.mpr ⟨m.nodup, nodup_singleton k, fun a ha b hb hab => by
        rw [mem_singleton] at hb
        exact h (by rw [← hb, ← hab]; exact ha)⟩

/-- Removes the entry at `k`, if any. -/
def delete (m : JsMap κ ν) (k : κ) : JsMap κ ν where
  entries := m.entries.filter fun e => e.1 ≠ k
  nodup := m.nodup.sublist (filter_sublist.map Prod.fst)

@[simp] theorem get_empty : (∅ : JsMap κ ν).get k = none := rfl

variable (m : JsMap κ ν)

/-- Lookup after `set`. -/
theorem get_set (k k' : κ) (v : ν) : (m.set k v).get k' = if k = k' then some v else m.get k' := by
  simp only [get, set]
  generalize m.entries = es
  induction es with
  | nil => simp [setEntries, lookup]
  | cons e es ih =>
    rw [setEntries]
    by_cases he : e.1 = k
    · by_cases hk : k = k' <;> simp [lookup, he, hk]
    · by_cases hk : k = k'
      · subst hk
        simpa [lookup, he] using ih
      · simp [he, lookup, ih, hk]

/-- A new key is appended. -/
theorem entries_set_of_absent {k : κ} {v : ν} (habsent : m.get k = none) :
    (m.set k v).entries = m.entries ++ [(k, v)] := by
  simp only [get, set] at habsent ⊢
  generalize m.entries = es at habsent
  induction es with
  | nil => rfl
  | cons e es ih =>
    rw [lookup] at habsent
    split_ifs at habsent with he
    rw [setEntries, if_neg he, ih habsent, cons_append]

/-- What is found after `set` is the new value, or was there under another key. -/
theorem get_set_eq_some {m : JsMap κ ν} {k k' : κ} {v w : ν} :
    (m.set k v).get k' = some w ↔ k = k' ∧ v = w ∨ k ≠ k' ∧ m.get k' = some w := by
  rw [get_set]
  split_ifs with h <;> simp [h]

@[simp] theorem get_set_self : (m.set k v).get k = some v := by
  simp [get_set]

theorem get_set_of_ne {k k' : κ} (h : k ≠ k') : (m.set k v).get k' = m.get k' := by
  simp [get_set, h]

/-- A new key leaves what is found at the others. -/
theorem get_set_of_absent {k k' : κ} {x : ν} (habsent : m.get k = none) (hx : m.get k' = some x) :
    (m.set k v).get k' = some x := by
  rw [get_set_of_ne, hx]
  rintro rfl
  cases habsent.symm.trans hx

/-- A property that the new value has if it replaces what is found. -/
theorem exists_get_set {P : ν → Prop} {k k' : κ} {v x : ν} (hx : m.get k' = some x)
    (hnew : m.get k = some x → P v) (hold : P x) : ∃ y, (m.set k v).get k' = some y ∧ P y := by
  rw [get_set]
  split_ifs with hk
  · exact ⟨v, rfl, hnew (hk ▸ hx)⟩
  · exact ⟨x, hx, hold⟩

/-- The images of the values after `set`. -/
theorem map_get_set {β : Type*} (f : ν → β) : (fun k' => ((m.set k v).get k').map f) =
      Function.update (fun k' => (m.get k').map f) k (some (f v)) := by
  funext k'
  by_cases hk : k' = k
  · simp [hk]
  · rw [get_set_of_ne _ _ (Ne.symm hk), Function.update_of_ne hk]

/-- Lookup after `delete`. -/
theorem get_delete (k k' : κ) : (m.delete k).get k' = if k = k' then none else m.get k' := by
  simp only [get, delete]
  generalize m.entries = es
  induction es with
  | nil => simp [lookup]
  | cons e es ih =>
    by_cases he : e.1 = k
    · subst he
      by_cases hk : e.1 = k' <;> simp [lookup, hk] at ih ⊢ <;> exact ih
    by_cases hk : k = k'
    · subst hk
      simpa [lookup, he] using ih
    · simp only [filter_cons, ne_eq, he, not_false_eq_true, decide_true, if_true, lookup, hk,
        if_false] at ih ⊢
      rw [ih]

@[simp] theorem get_delete_self : (m.delete k).get k = none := by
  simp [get_delete]

/-- An entry of the list is what lookup finds at its key. -/
theorem mem_entries_iff : (k, v) ∈ m.entries ↔ m.get k = some v := by
  obtain ⟨es, hnd⟩ := m
  simp only [get]
  induction es with
  | nil => simp [lookup]
  | cons e es ih =>
    obtain ⟨a, b⟩ := e
    simp only [map_cons, nodup_cons] at hnd
    by_cases he : a = k
    · subst he
      have hnot : (a, v) ∉ es := fun hm => hnd.1 (mem_map.mpr ⟨_, hm, rfl⟩)
      simp [lookup, hnot, eq_comm]
    · simp [lookup, he, Ne.symm he, ih hnd.2]

/-- A value is listed exactly when some key holds it. -/
theorem mem_values_iff : v ∈ m.values ↔ ∃ k, m.get k = some v := by
  simp only [values, mem_map]
  constructor
  · rintro ⟨⟨k, w⟩, hm, rfl⟩
    exact ⟨k, (m.mem_entries_iff k w).mp hm⟩
  · rintro ⟨k, hk⟩
    exact ⟨(k, v), (m.mem_entries_iff k v).mpr hk, rfl⟩

/-- Setting a key to the value it has changes nothing. -/
theorem set_of_get {k : κ} {v : ν} (h : m.get k = some v) : m.set k v = m := by
  obtain ⟨es, hnd⟩ := m
  simp only [get] at h
  simp only [set, mk.injEq]
  clear hnd
  induction es with
  | nil => simp [lookup] at h
  | cons e es ih =>
    obtain ⟨a, b⟩ := e
    by_cases ha : a = k
    · simp only [lookup, ha, if_true, Option.some.injEq] at h
      simp [setEntries, ha, h]
    · simp only [lookup, ha, if_false] at h
      simp [setEntries, ha, ih h]

/-- Of two values set at a key the second one stays. -/
theorem set_set (k : κ) (v w : ν) : (m.set k v).set k w = m.set k w := by
  simp only [set, mk.injEq]
  induction m.entries with
  | nil => simp [setEntries]
  | cons e es ih => by_cases he : e.1 = k <;> simp [setEntries, he, ih]

/-- Setting a key back to the value it had undoes a `set`. -/
theorem set_set_of_get {k : κ} {v w : ν} (h : m.get k = some w) : (m.set k v).set k w = m :=
  (m.set_set k v w).trans (m.set_of_get h)

/-- Deleting a key that was absent before undoes a `set`. -/
theorem delete_set_of_get {k : κ} {v : ν} (h : m.get k = none) : (m.set k v).delete k = m := by
  obtain ⟨es, hnd⟩ := m
  simp only [get] at h
  simp only [set, delete, mk.injEq]
  clear hnd
  induction es with
  | nil => simp [setEntries]
  | cons e es ih =>
    obtain ⟨a, b⟩ := e
    by_cases ha : a = k
    · simp [lookup, ha] at h
    · simp only [lookup, ha, if_false] at h
      simpa [setEntries, ha] using ih h

end JsMap

end ZimaControl
