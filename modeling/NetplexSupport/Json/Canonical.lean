/-
Sorting the members of every object is a normal form: two values are the same
JSON value exactly when they sort to the same value.  With the round trip this
makes the sorted text a faithful name of the value.
-/
import NetplexSupport.Json.Loaded

namespace Py

variable {F : Type}

/-! ### The sorted form -/

/-- The members of a sorted object. -/
def sortedMembers (ms : Members F) : Members F :=
  (ms.map fun m => (m.1, m.2.sortKeys)).insertionSort byKey

@[simp] theorem Json.sortKeys_arr (xs : List (Json F)) :
    (Json.arr xs).sortKeys = .arr (xs.map Json.sortKeys) := by
  rw [Json.sortKeys, Json.sortItems_eq]

@[simp] theorem Json.sortKeys_obj (ms : Members F) :
    (Json.obj ms).sortKeys = .obj (sortedMembers ms) := by
  rw [Json.sortKeys, Json.sortMembers_eq, sortedMembers]

theorem sortedMembers_perm (ms : Members F) :
    (sortedMembers ms).Perm (ms.map fun m => (m.1, m.2.sortKeys)) :=
  List.perm_insertionSort _ _

theorem sortedMembers_keys_perm (ms : Members F) :
    ((sortedMembers ms).map Prod.fst).Perm (ms.map Prod.fst) := by
  have h := (sortedMembers_perm ms).map Prod.fst
  rwa [List.map_map] at h

theorem mem_sortedMembers {ms : Members F} {m : Str × Json F} :
    m ∈ sortedMembers ms ↔ ∃ n ∈ ms, (n.1, n.2.sortKeys) = m := by
  rw [(sortedMembers_perm ms).mem_iff, List.mem_map]

theorem dictGet_sortedMembers {ms : Members F} (hms : (ms.map Prod.fst).Nodup)
    (k : Str) : dictGet (sortedMembers ms) k = (dictGet ms k).map Json.sortKeys := by
  rw [← dictGet_map]
  apply dictGet_perm
  · exact (sortedMembers_keys_perm ms).nodup_iff.mpr hms
  · exact sortedMembers_perm ms

theorem Json.keyed_sortKeys {j : Json F} (h : j.Keyed) : j.sortKeys.Keyed := by
  induction j using Json.induct with
  | null | bool | int | float | str => exact h
  | arr xs ih =>
      rw [Json.keyed_arr] at h
      rw [Json.sortKeys_arr, Json.keyed_arr]
      intro y hy
      obtain ⟨x, hx, rfl⟩ := List.mem_map.mp hy
      exact ih x hx (h x hx)
  | obj ms ih =>
      rw [Json.keyed_obj] at h
      rw [Json.sortKeys_obj, Json.keyed_obj]
      refine ⟨(sortedMembers_keys_perm ms).nodup_iff.mpr h.1, ?_⟩
      intro m hm
      obtain ⟨n, hn, rfl⟩ := mem_sortedMembers.mp hm
      exact ih n hn (h.2 n hn)

theorem Json.strings_sortKeys {p : Str → Bool} {j : Json F} :
    j.sortKeys.Strings p ↔ j.Strings p := by
  induction j using Json.induct with
  | null | bool | int | float | str => exact Iff.rfl
  | arr xs ih =>
      rw [Json.sortKeys_arr, Json.strings_arr, Json.strings_arr, List.forall_mem_map]
      exact forall₂_congr ih
  | obj ms ih =>
      rw [Json.sortKeys_obj, Json.strings_obj, Json.strings_obj]
      constructor
      · rintro ⟨hkeys, hvalues⟩
        have hmem : ∀ n ∈ ms, (n.1, n.2.sortKeys) ∈ sortedMembers ms :=
          fun n hn => mem_sortedMembers.mpr ⟨n, hn, rfl⟩
        exact ⟨fun n hn => hkeys (n.1, n.2.sortKeys) (hmem n hn),
          fun n hn => (ih n hn).mp (hvalues _ (hmem n hn))⟩
      · rintro ⟨hkeys, hvalues⟩
        constructor
        · intro m hm
          obtain ⟨n, hn, rfl⟩ := mem_sortedMembers.mp hm
          exact hkeys n hn
        · intro m hm
          obtain ⟨n, hn, rfl⟩ := mem_sortedMembers.mp hm
          exact (ih n hn).mpr (hvalues n hn)

instance : Std.Total (byKey (F := F)) := ⟨fun a b => le_total a.1 b.1⟩

instance : IsTrans (Str × Json F) byKey := ⟨fun _ _ _ => le_trans⟩

/-- Members that agree up to order sort to the same list. -/
theorem sortedMembers_eq_of_perm {ms ns : Members F} (hms : (ms.map Prod.fst).Nodup)
    (hperm : (ms.map fun m => (m.1, m.2.sortKeys)).Perm
      (ns.map fun m => (m.1, m.2.sortKeys))) :
    sortedMembers ms = sortedMembers ns := by
  have hsorted : (sortedMembers ms).Perm (sortedMembers ns) :=
    (sortedMembers_perm ms).trans (hperm.trans (sortedMembers_perm ns).symm)
  have hkeys : ((sortedMembers ms).map Prod.fst).Nodup :=
    (sortedMembers_keys_perm ms).nodup_iff.mpr hms
  have hpairwise : ∀ ms : Members F, (sortedMembers ms).Pairwise byKey :=
    fun ms => List.pairwise_insertionSort byKey _
  refine hsorted.eq_of_pairwise ?_ (hpairwise ms) (hpairwise ns)
  intro a b ha hb hab hba
  have hb := hsorted.mem_iff.mpr hb
  exact List.inj_on_of_nodup_map hkeys ha hb (le_antisymm hab hba)

/-- Sorting again changes nothing. -/
theorem Json.sortKeys_idem {j : Json F} (h : j.Keyed) :
    j.sortKeys.sortKeys = j.sortKeys := by
  induction j using Json.induct with
  | null | bool | int | float | str => rfl
  | arr xs ih =>
      rw [Json.keyed_arr] at h
      rw [Json.sortKeys_arr, Json.sortKeys_arr, List.map_map, Json.arr.injEq]
      exact List.map_congr_left fun x hx => ih x hx (h x hx)
  | obj ms ih =>
      rw [Json.keyed_obj] at h
      rw [Json.sortKeys_obj, Json.sortKeys_obj, Json.obj.injEq]
      refine sortedMembers_eq_of_perm
        ((sortedMembers_keys_perm ms).nodup_iff.mpr h.1) ?_
      refine ((sortedMembers_perm ms).map _).trans ?_
      rw [List.map_map]
      exact List.Perm.of_eq (List.map_congr_left fun m hm => by
        simp [ih m hm (h.2 m hm)])

/-! ### Equality is equality of the sorted forms -/

theorem Json.sortKeys_eq_of_same {a b : Json F} (ha : a.Keyed) (hb : b.Keyed)
    (h : a.Same b) : a.sortKeys = b.sortKeys := by
  induction a using Json.induct generalizing b with
  | null => cases b <;> first | rfl | cases h
  | bool | int | float | str =>
      cases b <;> first | exact h.elim | (obtain rfl := h; rfl)
  | arr xs ih =>
      cases b with
      | arr ys =>
          rw [Json.Same, Json.sameItems_iff] at h
          rw [Json.keyed_arr] at ha hb
          rw [Json.sortKeys_arr, Json.sortKeys_arr, Json.arr.injEq]
          induction h with
          | nil => rfl
          | @cons x y xs ys hxy hrest ihrest =>
              rw [List.map_cons, List.map_cons,
                ih x List.mem_cons_self (ha x List.mem_cons_self)
                  (hb y List.mem_cons_self) hxy,
                ihrest (fun z hz => ih z (List.mem_cons_of_mem x hz))
                  (fun z hz => ha z (List.mem_cons_of_mem x hz))
                  (fun z hz => hb z (List.mem_cons_of_mem y hz))]
      | null | bool | int | float | str | obj => exact (by cases h)
  | obj ms ih =>
      cases b with
      | obj ns =>
          rw [Json.Same, Json.sameMembers_iff] at h
          rw [Json.keyed_obj] at ha hb
          obtain ⟨hlength, hmembers⟩ := h
          rw [Json.sortKeys_obj, Json.sortKeys_obj, Json.obj.injEq]
          refine sortedMembers_eq_of_perm ha.1 ?_
          have hnodup : (ms.map fun m => (m.1, m.2.sortKeys)).Nodup :=
            List.Nodup.of_map Prod.fst (by rw [List.map_map]; exact ha.1)
          have hsubset : (ms.map fun m => (m.1, m.2.sortKeys)) ⊆
              ns.map fun m => (m.1, m.2.sortKeys) := by
            intro p hp
            obtain ⟨m, hm, rfl⟩ := List.mem_map.mp hp
            obtain ⟨w, hget, hsame⟩ := hmembers m hm
            have hw := mem_of_dictGet hget
            rw [ih m hm (ha.2 m hm) (hb.2 _ hw) hsame]
            exact List.mem_map_of_mem (f := fun m => (m.1, m.2.sortKeys)) hw
          exact (List.subperm_of_subset hnodup hsubset).perm_of_length_le
            (by simp [hlength])
      | null | bool | int | float | str | arr => exact (by cases h)

theorem Json.same_of_sortKeys_eq {a b : Json F} (hb : b.Keyed)
    (h : a.sortKeys = b.sortKeys) : a.Same b := by
  induction a using Json.induct generalizing b with
  | null => cases b <;> simp [Json.sortKeys, Json.Same] at h ⊢
  | bool | int | float | str =>
      cases b <;> simp [Json.sortKeys, Json.Same] at h ⊢
      exact h
  | arr xs ih =>
      cases b with
      | arr ys =>
          rw [Json.sortKeys_arr, Json.sortKeys_arr, Json.arr.injEq] at h
          rw [Json.keyed_arr] at hb
          rw [Json.Same, Json.sameItems_iff]
          induction xs generalizing ys with
          | nil => cases ys with
            | nil => exact List.Forall₂.nil
            | cons y ys => simp at h
          | cons x xs ihxs =>
              cases ys with
              | nil => simp at h
              | cons y ys =>
                  rw [List.map_cons, List.map_cons, List.cons.injEq] at h
                  exact List.Forall₂.cons
                    (ih x List.mem_cons_self (hb y List.mem_cons_self) h.1)
                    (ihxs (fun z hz => ih z (List.mem_cons_of_mem x hz)) ys
                      (fun z hz => hb z (List.mem_cons_of_mem y hz)) h.2)
      | null | bool | int | float | str | obj => simp [Json.sortKeys] at h
  | obj ms ih =>
      cases b with
      | obj ns =>
          rw [Json.sortKeys_obj, Json.sortKeys_obj, Json.obj.injEq] at h
          rw [Json.keyed_obj] at hb
          rw [Json.Same, Json.sameMembers_iff]
          have hperm := (sortedMembers_perm ms).symm.trans
            (h ▸ sortedMembers_perm ns)
          refine ⟨by simpa using hperm.length_eq, fun m hm => ?_⟩
          have hmem := hperm.mem_iff.mp
            (List.mem_map_of_mem (f := fun m => (m.1, m.2.sortKeys)) hm)
          obtain ⟨n, hn, heq⟩ := List.mem_map.mp hmem
          obtain ⟨hkey, hvalue⟩ := Prod.mk.inj heq
          refine ⟨n.2, (dictGet_eq_some_iff hb.1).mpr (hkey ▸ hn), ?_⟩
          exact ih m hm (hb.2 n hn) hvalue.symm
      | null | bool | int | float | str | arr => simp [Json.sortKeys] at h

theorem Json.same_iff_sortKeys_eq {a b : Json F} (ha : a.Keyed) (hb : b.Keyed) :
    a.Same b ↔ a.sortKeys = b.sortKeys :=
  ⟨Json.sortKeys_eq_of_same ha hb, Json.same_of_sortKeys_eq hb⟩

theorem Json.same_sortKeys {j : Json F} (h : j.Keyed) : j.sortKeys.Same j :=
  Json.same_of_sortKeys_eq h (Json.sortKeys_idem h)

/-! ### The sorted text -/

variable [PyFloat F]

/-- `json.loads` of the sorted text is the sorted value. -/
theorem loads_dumps_sorted {o : DumpOpts} (ho : o.Lawful) (hsort : o.sortKeys = true)
    {j : Json F} (hkeyed : j.Keyed) (hstr : o.Readable j) :
    loads (dumps o j) = some j.sortKeys := by
  have h := loads_render ho (Json.keyed_sortKeys hkeyed)
    (Json.strings_sortKeys.mpr hstr) (w := []) (by simp)
  simpa [dumps, hsort] using h

theorem loads_dumps {o : DumpOpts} (ho : o.Lawful) (hsort : o.sortKeys = false)
    {j : Json F} (hkeyed : j.Keyed) (hstr : o.Readable j) {w : Str}
    (hw : ∀ c ∈ w, isJsonSpace c = true) :
    loads (dumps o j ++ w) = some j := by
  have h := loads_render ho hkeyed hstr hw
  simpa [dumps, hsort] using h

/-- The sorted texts of two values are equal exactly when the values are. -/
theorem dumps_sorted_eq_iff {o : DumpOpts} (ho : o.Lawful) (hsort : o.sortKeys = true)
    {a b : Json F} (ha : a.Keyed) (hb : b.Keyed) (hastr : o.Readable a)
    (hbstr : o.Readable b) : dumps o a = dumps o b ↔ a.Same b := by
  rw [Json.same_iff_sortKeys_eq ha hb]
  constructor
  · intro h
    have hloads := loads_dumps_sorted ho hsort ha hastr
    rw [h, loads_dumps_sorted ho hsort hb hbstr] at hloads
    exact (Option.some.inj hloads).symm
  · intro h
    simp [dumps, hsort, h]

end Py
