/-
Sliding windows over a clock.  A queue that drops the times that left the window
at its front, and appends new ones at its end, always holds exactly the recorded
times that are still in the window.
-/
import Mathlib.Algebra.Order.Group.Unbundled.Basic
import Mathlib.Algebra.Order.Group.Defs

namespace Window

variable {α τ : Type}

/-- When the dropped ones come first, dropping them is filtering. -/
theorem dropWhile_eq_filter {p : α → Bool} {l : List α}
    (hl : l.Pairwise fun a b => p b = true → p a = true) :
    l.dropWhile p = l.filter fun a => !p a := by
  induction l with
  | nil => rfl
  | cons a l ih =>
      rw [List.pairwise_cons] at hl
      by_cases ha : p a = true
      · simp only [ha, List.dropWhile_cons_of_pos, ih hl.2]
        simp [ha]
      · have hall : ∀ b ∈ l, ¬ p b = true := fun b hb hpb => ha (hl.1 b hb hpb)
        rw [List.dropWhile_cons_of_neg ha, List.filter_cons_of_pos (by simp [ha]),
          List.filter_eq_self.mpr (fun b hb => by simp [hall b hb])]

section

variable [AddCommGroup τ] [LinearOrder τ]

/-- The times in the closed window that ends at `now`. -/
def recent (window now : τ) (times : List τ) : List τ :=
  times.filter fun t => decide (now - t ≤ window)

/-- The queue after the times that left the window are dropped at its front. -/
def expire (window now : τ) (q : List τ) : List τ :=
  q.dropWhile fun t => decide (window < now - t)

/-- At `now`, the queue holds what the window needs of the times recorded in
it. -/
structure Keeps (window : τ) (q times : List τ) (now : τ) : Prop where
  sorted : q.Pairwise (· ≤ ·)
  past : ∀ t ∈ q, t ≤ now
  complete : ∀ later, now ≤ later → recent window later q = recent window later times

variable {window now now' t : τ} {q times : List τ}

theorem recent_append (window now : τ) (times more : List τ) :
    recent window now (times ++ more) = recent window now times ++ recent window now more :=
  List.filter_append ..

theorem recent_singleton_of_lt (h : window < now - t) : recent window now [t] = [] := by
  simp [recent, not_le.mpr h]

/-- A time in the window stays behind those before it. -/
theorem expire_append_recent (h : now - t ≤ window) (q : List τ) :
    expire window now (q ++ [t]) = expire window now q ++ [t] := by
  rw [expire, List.dropWhile_append]
  by_cases hnil : (q.dropWhile fun t => decide (window < now - t)).isEmpty = true
  · rw [if_pos hnil]
    simp [expire, List.isEmpty_iff.mp hnil, h]
  · rw [if_neg hnil]
    rfl

/-! ### What the operations keep -/

theorem Keeps.nil (window now : τ) : Keeps window [] [] now :=
  ⟨.nil, by simp, fun _ _ => rfl⟩

theorem Keeps.mono (h : Keeps window q times now) (hle : now ≤ now') :
    Keeps window q times now' where
  sorted := h.sorted
  past := fun t ht => (h.past t ht).trans hle
  complete := fun later hlater => h.complete later (hle.trans hlater)

theorem Keeps.record (h : Keeps window q times now) :
    Keeps window (q ++ [now]) (times ++ [now]) now where
  sorted := by
    rw [List.pairwise_append]
    refine ⟨h.sorted, List.pairwise_singleton _ _, ?_⟩
    intro t ht t' ht'
    exact List.mem_singleton.mp ht' ▸ h.past t ht
  past := by
    intro t ht
    rcases List.mem_append.mp ht with ht | ht
    · exact h.past t ht
    · exact (List.mem_singleton.mp ht).le
  complete := by
    intro later hlater
    rw [recent_append, recent_append, h.complete later hlater]

variable [IsOrderedAddMonoid τ]

theorem expire_eq_recent (hq : q.Pairwise (· ≤ ·)) : expire window now q = recent window now q := by
  have hmono : q.Pairwise fun a b =>
      decide (window < now - b) = true → decide (window < now - a) = true := by
    apply hq.imp
    intro a b hab hb
    rw [decide_eq_true_eq] at hb ⊢
    exact hb.trans_le (sub_le_sub_left hab now)
  rw [expire, dropWhile_eq_filter hmono]
  apply List.filter_congr
  intro t _
  rw [← decide_not, decide_eq_decide]
  exact not_lt

/-- What has left the window stays out of it. -/
theorem recent_recent (h : now ≤ now') (times : List τ) :
    recent window now' (recent window now times) = recent window now' times := by
  rw [recent, recent, List.filter_filter]
  apply List.filter_congr
  intro t _
  rw [Bool.and_eq_left_iff_imp, decide_eq_true_eq, decide_eq_true_eq]
  exact fun hlater => (sub_le_sub_right h t).trans hlater

theorem expire_expire (h : now ≤ now') (q : List τ) :
    expire window now' (expire window now q) = expire window now' q := by
  induction q with
  | nil => rfl
  | cons t q ih =>
      by_cases hnow : window < now - t
      · have hlater : window < now' - t := hnow.trans_le (sub_le_sub_right h t)
        simpa [expire, hnow, hlater] using ih
      · simp [expire, hnow]

theorem Keeps.expire_eq (h : Keeps window q times now) :
    expire window now q = recent window now times :=
  (expire_eq_recent h.sorted).trans (h.complete now (le_refl now))

theorem Keeps.expired (h : Keeps window q times now) :
    Keeps window (expire window now q) times now where
  sorted := h.sorted.sublist (List.dropWhile_sublist _)
  past := fun t ht => h.past t ((List.dropWhile_sublist _).subset ht)
  complete := by
    intro later hlater
    rw [expire_eq_recent h.sorted, recent_recent hlater]
    exact h.complete later hlater

/-- A time that has left the window may as well not have been recorded. -/
theorem Keeps.expire_record (h : Keeps window q times now) (hout : window < now' - now) :
    expire window now' (q ++ [now]) = expire window now' q := by
  rw [expire_eq_recent h.record.sorted, expire_eq_recent h.sorted, recent_append,
    recent_singleton_of_lt hout, List.append_nil]

/-- A time that has left the window need not be remembered. -/
theorem Keeps.forget (h : Keeps window q (times ++ [t]) now) (ht : window < now - t) :
    Keeps window q times now where
  sorted := h.sorted
  past := h.past
  complete := by
    intro later hlater
    have hstale : window < later - t := ht.trans_le (sub_le_sub_right hlater t)
    rw [h.complete later hlater, recent_append, recent_singleton_of_lt hstale,
      List.append_nil]

end

end Window
