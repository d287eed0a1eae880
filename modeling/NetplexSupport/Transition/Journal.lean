/-
Machines that keep an append-only table: an event is either answered and writes
one row at the end, or refused and writes nothing.  After a run the table lists
the rows of the answered events, and the last row of a kind is the row of the
last answered event of that kind.
-/
import NetplexSupport.Sql.Table
import NetplexSupport.Transition.Runs

namespace Transition

variable {S R E A X κ : Type}

/-- The events of a run that were answered. -/
def accepted (step : S → E → S × Except X A) (s : S) : List E → List E
  | [] => []
  | e :: events =>
      match (step s e).2 with
      | .ok _ => e :: accepted step (step s e).1 events
      | .error _ => accepted step (step s e).1 events

theorem accepted_sublist (step : S → E → S × Except X A) (s : S) (events : List E) :
    (accepted step s events).Sublist events := by
  induction events generalizing s with
  | nil => exact .slnil
  | cons e events ih =>
      simp only [accepted]
      rcases (step s e).2 with x | a
      · exact .cons e (ih _)
      · exact .cons_cons e (ih _)

/-- An event that is answered where it stands is one of them. -/
theorem mem_accepted {step : S → E → S × Except X A} {s : S} {before rest : List E} {e : E}
    {a : A} (h : (step (after step s before) e).2 = .ok a) :
    e ∈ accepted step s (before ++ e :: rest) := by
  induction before generalizing s with
  | nil =>
      rw [after_nil] at h
      rw [List.nil_append, accepted, h]
      exact List.mem_cons_self
  | cons first before ih =>
      have hrest := ih h
      rw [List.cons_append, accepted]
      split
      · exact List.mem_cons_of_mem _ hrest
      · exact hrest

/-- An answered event writes one row and a refused event none. -/
def Journal (step : List R → E → List R × Except X A) (Writes : E → R → Prop) : Prop :=
  ∀ rows e, (∃ row a, Writes e row ∧ step rows e = (rows ++ [row], .ok a)) ∨
    ∃ x, step rows e = (rows, .error x)

variable {step : List R → E → List R × Except X A} {Writes : E → R → Prop}

/-- The rows of the answered events, in order, behind those that were there. -/
theorem Journal.after_eq (h : Journal step Writes) (rows : List R) (events : List E) :
    ∃ added, after step rows events = rows ++ added ∧
      List.Forall₂ Writes (accepted step rows events) added := by
  induction events generalizing rows with
  | nil => exact ⟨[], by simp, .nil⟩
  | cons e events ih =>
      rcases h rows e with ⟨row, a, hrow, hstep⟩ | ⟨x, hstep⟩
      · obtain ⟨added, hafter, hadded⟩ := ih (rows ++ [row])
        refine ⟨row :: added, ?_, ?_⟩
        · rw [after_cons, hstep, hafter, List.append_assoc]
          rfl
        · simp only [accepted, hstep]
          exact .cons hrow hadded
      · obtain ⟨added, hafter, hadded⟩ := ih rows
        refine ⟨added, ?_, ?_⟩
        · rw [after_cons, hstep, hafter]
        · simp only [accepted, hstep]
          exact hadded

theorem rel_getLast? {α β : Type} {P : α → β → Prop} {xs : List α} {ys : List β}
    (h : List.Forall₂ P xs ys) : Option.Rel P xs.getLast? ys.getLast? := by
  rw [← List.head?_reverse, ← List.head?_reverse]
  have hreverse := List.forall₂_reverse_iff.mpr h
  generalize xs.reverse = xs', ys.reverse = ys' at hreverse ⊢
  rcases hreverse with _ | ⟨hxy, _⟩
  · exact .none
  · exact .some hxy

/-- In a table whose keys increase, `WHERE p ORDER BY key DESC LIMIT 1` finds the
row of the last answered event of the kind `q`. -/
theorem Journal.lastBy [LinearOrder κ] (h : Journal step Writes) {key : R → κ}
    {events : List E}
    (hkeys : (after step [] events).Pairwise fun a b => key a < key b) {q : E → Bool}
    {p : R → Bool} (hkind : ∀ e row, Writes e row → (q e = true ↔ p row = true)) :
    Option.Rel Writes ((accepted step [] events).filter q).getLast?
      (Sql.lastBy key ((after step [] events).filter p)) := by
  rw [Sql.lastBy_eq_getLast? (hkeys.sublist List.filter_sublist)]
  obtain ⟨added, hafter, hadded⟩ := h.after_eq [] events
  rw [hafter, List.nil_append]
  exact rel_getLast? (List.rel_filter (fun e row => hkind e row) hadded)

end Transition
