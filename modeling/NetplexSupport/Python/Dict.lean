/-
Python dicts with string keys, as lists of members in insertion order.
-/
import NetplexSupport.Python.Text
import Mathlib.Data.List.Nodup

namespace Py

abbrev Dict (V : Type) := List (Str × V)

variable {V W : Type}

/-- `d.get(key)`. -/
def dictGet (d : Dict V) (key : Str) : Option V := d.lookup key

/-- `d[key] = value`: an existing key keeps its place. -/
def dictSet (d : Dict V) (key : Str) (value : V) : Dict V :=
  match d with
  | [] => [(key, value)]
  | m :: rest =>
      if m.1 = key then (key, value) :: rest else m :: dictSet rest key value

/-- The dict of a list of members: a repeated key keeps its last value. -/
def dictOf (ms : Dict V) : Dict V := ms.foldl (fun d m => dictSet d m.1 m.2) []

/-! ### Lookups -/

@[simp] theorem dictGet_nil (k : Str) : dictGet ([] : Dict V) k = none := rfl

theorem dictGet_cons (m : Str × V) (d : Dict V) (k : Str) :
    dictGet (m :: d) k = if k = m.1 then some m.2 else dictGet d k := by
  obtain ⟨k', v⟩ := m
  by_cases hk : k = k'
  · simp [dictGet, hk]
  · have hbeq : (k == k') = false := by simpa using hk
    simp [dictGet, List.lookup_cons, hk, hbeq]

theorem mem_of_dictGet {d : Dict V} {k : Str} {v : V} (h : dictGet d k = some v) :
    (k, v) ∈ d := by
  induction d with
  | nil => simp at h
  | cons m d ih =>
      rw [dictGet_cons] at h
      split at h
      · rename_i hk
        rw [hk, ← Option.some.inj h]
        exact List.mem_cons_self
      · exact List.mem_cons_of_mem _ (ih h)

theorem dictGet_eq_some_iff {d : Dict V} (hd : (d.map Prod.fst).Nodup) {k : Str}
    {v : V} : dictGet d k = some v ↔ (k, v) ∈ d := by
  refine ⟨mem_of_dictGet, fun h => ?_⟩
  induction d with
  | nil => simp at h
  | cons m d ih =>
      rw [List.map_cons, List.nodup_cons] at hd
      rw [dictGet_cons]
      rcases List.mem_cons.mp h with rfl | h
      · simp
      · have hmem : k ∈ d.map Prod.fst := List.mem_map_of_mem (f := Prod.fst) h
        have hne : k ≠ m.1 := fun heq => hd.1 (heq ▸ hmem)
        rw [if_neg hne]
        exact ih hd.2 h

/-- Two dicts with the same members, in any order, answer alike. -/
theorem dictGet_perm {d e : Dict V} (hd : (d.map Prod.fst).Nodup) (hperm : d.Perm e)
    (k : Str) : dictGet d k = dictGet e k := by
  have he : (e.map Prod.fst).Nodup := (hperm.map Prod.fst).nodup_iff.mp hd
  apply Option.ext
  intro v
  rw [dictGet_eq_some_iff hd, dictGet_eq_some_iff he, hperm.mem_iff]

theorem dictGet_map (d : Dict V) (f : V → W) (k : Str) :
    dictGet (d.map fun m => (m.1, f m.2)) k = (dictGet d k).map f := by
  induction d with
  | nil => rfl
  | cons m d ih =>
      rw [List.map_cons, dictGet_cons, dictGet_cons, ih]
      split <;> rfl

/-! ### Updates -/

theorem dictGet_dictSet (d : Dict V) (key : Str) (value : V) (k : Str) :
    dictGet (dictSet d key value) k = if k = key then some value else dictGet d k := by
  induction d with
  | nil => simp [dictSet, dictGet_cons]
  | cons m d ih =>
      simp only [dictSet]
      split
      · rename_i hm
        rw [dictGet_cons, dictGet_cons, hm]
        split <;> simp_all
      · rename_i hm
        rw [dictGet_cons, dictGet_cons, ih]
        split <;> simp_all

theorem dictSet_new (d : Dict V) (k : Str) (v : V) (hk : k ∉ d.map Prod.fst) :
    dictSet d k v = d ++ [(k, v)] := by
  induction d with
  | nil => rfl
  | cons m d ih =>
      simp only [List.map_cons, List.mem_cons, not_or] at hk
      simp [dictSet, Ne.symm hk.1, ih hk.2]

theorem dictSet_old {d : Dict V} (hd : (d.map Prod.fst).Nodup) {k : Str} (v : V)
    (hk : k ∈ d.map Prod.fst) :
    dictSet d k v = d.map fun m => if m.1 = k then (m.1, v) else m := by
  induction d with
  | nil => cases hk
  | cons n d ih =>
      obtain ⟨hn, hd⟩ := List.nodup_cons.mp hd
      rw [List.map_cons, dictSet]
      by_cases heq : n.1 = k
      · subst heq
        rw [if_pos rfl, if_pos rfl]
        congr 1
        refine (List.map_id d).symm.trans (List.map_congr_left fun m hm => ?_)
        rw [if_neg fun h : m.1 = n.1 => hn (h ▸ List.mem_map_of_mem hm)]
        rfl
      · rw [if_neg heq, if_neg heq, ih hd]
        exact (List.mem_cons.mp hk).resolve_left (Ne.symm heq)

theorem mem_dictSet {d : Dict V} {k : Str} {v : V} {m : Str × V}
    (h : m ∈ dictSet d k v) : m = (k, v) ∨ m ∈ d := by
  induction d with
  | nil => simpa [dictSet] using h
  | cons n d ih =>
      simp only [dictSet] at h
      split at h <;> rcases List.mem_cons.mp h with h | h
      · exact Or.inl h
      · exact Or.inr (List.mem_cons_of_mem n h)
      · exact Or.inr (h ▸ List.mem_cons_self)
      · exact (ih h).imp id (List.mem_cons_of_mem n)

theorem dictSet_keys_nodup {d : Dict V} (k : Str) (v : V)
    (hd : (d.map Prod.fst).Nodup) : ((dictSet d k v).map Prod.fst).Nodup := by
  induction d with
  | nil => simp [dictSet]
  | cons n d ih =>
      rw [List.map_cons, List.nodup_cons] at hd
      simp only [dictSet]
      split
      · rename_i hn
        rw [List.map_cons, List.nodup_cons, ← hn]
        exact hd
      · rename_i hn
        rw [List.map_cons, List.nodup_cons]
        refine ⟨?_, ih hd.2⟩
        intro hmem
        obtain ⟨m, hm, heq⟩ := List.mem_map.mp hmem
        rcases mem_dictSet hm with rfl | hm
        · exact hn heq.symm
        · exact hd.1 (heq ▸ List.mem_map_of_mem hm)

/-- Members with different keys are a dict as they stand. -/
theorem dictOf_eq_self (ms : Dict V) (hms : (ms.map Prod.fst).Nodup) :
    dictOf ms = ms := by
  have hfold : ∀ (ms acc : Dict V), ((acc ++ ms).map Prod.fst).Nodup →
      ms.foldl (fun d m => dictSet d m.1 m.2) acc = acc ++ ms := by
    intro ms
    induction ms with
    | nil => simp
    | cons m ms ih =>
        intro acc h
        have hnew : m.1 ∉ acc.map Prod.fst := by
          intro hmem
          rw [List.map_append, List.nodup_append'] at h
          exact h.2.2 hmem (by simp)
        rw [List.foldl_cons, dictSet_new acc m.1 m.2 hnew, ih]
        · simp
        · simpa using h
  exact hfold ms [] (by simpa using hms)

theorem dictOf_spec (ms : Dict V) :
    ((dictOf ms).map Prod.fst).Nodup ∧ ∀ m ∈ dictOf ms, m ∈ ms := by
  have hfold : ∀ (ms acc : Dict V), (acc.map Prod.fst).Nodup →
      ((ms.foldl (fun d m => dictSet d m.1 m.2) acc).map Prod.fst).Nodup ∧
        ∀ m ∈ ms.foldl (fun d m => dictSet d m.1 m.2) acc, m ∈ acc ∨ m ∈ ms := by
    intro ms
    induction ms with
    | nil => exact fun acc hacc => ⟨hacc, fun m hm => Or.inl hm⟩
    | cons n ms ih =>
        intro acc hacc
        obtain ⟨hnodup, hmem⟩ := ih _ (dictSet_keys_nodup n.1 n.2 hacc)
        refine ⟨hnodup, fun m hm => ?_⟩
        rcases hmem m hm with h | h
        · exact (mem_dictSet h).elim (fun h => Or.inr (h ▸ List.mem_cons_self)) Or.inl
        · exact Or.inr (List.mem_cons_of_mem n h)
  obtain ⟨hnodup, hmem⟩ := hfold ms [] (by simp)
  exact ⟨hnodup, fun m hm => (hmem m hm).resolve_left (by simp)⟩

theorem dictOf_append_singleton (ms : Dict V) (m : Str × V) :
    dictOf (ms ++ [m]) = dictSet (dictOf ms) m.1 m.2 := by
  rw [dictOf, List.foldl_append]
  rfl

/-- A lookup finds the last member of the key. -/
theorem dictGet_dictOf_eq_some_iff {ms : Dict V} {k : Str} {v : V} :
    dictGet (dictOf ms) k = some v ↔
      ∃ pre post, ms = pre ++ (k, v) :: post ∧ ∀ m ∈ post, m.1 ≠ k := by
  induction ms using List.reverseRecOn with
  | nil => simp [dictOf]
  | append_singleton ms m ih =>
      rw [dictOf_append_singleton, dictGet_dictSet]
      constructor
      · intro h
        by_cases hk : k = m.1
        · rw [if_pos hk, Option.some_inj] at h
          exact ⟨ms, [], by rw [hk, ← h], by simp⟩
        · rw [if_neg hk] at h
          obtain ⟨pre, post, rfl, hpost⟩ := ih.mp h
          refine ⟨pre, post ++ [m], by simp, ?_⟩
          rw [List.forall_mem_append, List.forall_mem_singleton]
          exact ⟨hpost, Ne.symm hk⟩
      · rintro ⟨pre, post, hms, hpost⟩
        rcases List.eq_nil_or_concat post with rfl | ⟨post, n, rfl⟩
        · obtain ⟨_, rfl⟩ := List.append_inj' hms rfl |>.imp id (List.singleton_inj.mp)
          exact if_pos rfl
        · rw [List.concat_eq_append, ← List.cons_append, ← List.append_assoc] at hms
          obtain ⟨rfl, hm⟩ := List.append_inj' hms rfl
          rw [List.concat_eq_append, List.forall_mem_append] at hpost
          have hne : k ≠ m.1 := by
            rw [List.singleton_inj.mp hm]
            exact (hpost.2 n (List.mem_singleton_self n)).symm
          rw [if_neg hne]
          exact ih.mpr ⟨pre, post, rfl, hpost.1⟩

end Py
