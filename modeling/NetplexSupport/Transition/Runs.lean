/-
Runs of a deterministic machine that takes one event after another and answers
each.  An invariant may speak about the events still to come, which is how the
freshness of identifiers and the order of clock readings are carried.
-/
import Mathlib.Data.List.Forall2

namespace Transition

variable {S E O V : Type*}

/-- The state after a run. -/
def after (step : S → E → S × O) (s : S) (events : List E) : S :=
  events.foldl (fun s e => (step s e).1) s

/-- The answers of a run, one for each event. -/
def answers (step : S → E → S × O) (s : S) : List E → List O
  | [] => []
  | e :: events => (step s e).2 :: answers step (step s e).1 events

/-- The events of a run whose answers satisfy `p`. -/
def selected (step : S → E → S × O) (p : O → Bool) (s : S) : List E → List E
  | [] => []
  | e :: events =>
      if p (step s e).2 then e :: selected step p (step s e).1 events
      else selected step p (step s e).1 events

@[simp] theorem after_nil (step : S → E → S × O) (s : S) : after step s [] = s := rfl

@[simp] theorem after_cons (step : S → E → S × O) (s : S) (e : E) (events : List E) :
    after step s (e :: events) = after step (step s e).1 events := rfl

theorem after_append (step : S → E → S × O) (s : S) (events more : List E) :
    after step s (events ++ more) = after step (after step s events) more :=
  List.foldl_append

theorem selected_append (step : S → E → S × O) (p : O → Bool) (s : S)
    (events more : List E) :
    selected step p s (events ++ more) =
      selected step p s events ++ selected step p (after step s events) more := by
  induction events generalizing s with
  | nil => rfl
  | cons e events ih =>
      simp only [List.cons_append, selected, after_cons, ih]
      by_cases hp : p (step s e).2 = true
      · simp [hp]
      · simp [hp]

theorem selected_sublist (step : S → E → S × O) (p : O → Bool) (s : S)
    (events : List E) : (selected step p s events).Sublist events := by
  induction events generalizing s with
  | nil => exact .slnil
  | cons e events ih =>
      simp only [selected]
      by_cases hp : p (step s e).2 = true
      · simp only [hp, if_true]
        exact .cons_cons e (ih _)
      · simp only [hp]
        exact .cons e (ih _)

/-- An invariant of the state and of the events still to come holds after every
prefix of a run. -/
theorem inv_after {step : S → E → S × O} {Inv : S → List E → Prop}
    (hstep : ∀ s e events, Inv s (e :: events) → Inv (step s e).1 events)
    {s : S} {events : List E} (rest : List E) (h : Inv s (events ++ rest)) :
    Inv (after step s events) rest := by
  induction events generalizing s with
  | nil => exact h
  | cons e events ih => exact ih (hstep s e _ h)

/-- The same for an invariant that speaks about the selected events as well. -/
theorem inv_selected {step : S → E → S × O} {p : O → Bool}
    {Inv : S → List E → List E → Prop}
    (hstep : ∀ s past e events, Inv s past (e :: events) →
      Inv (step s e).1 (if p (step s e).2 then past ++ [e] else past) events)
    {s : S} {past events : List E} (rest : List E) (h : Inv s past (events ++ rest)) :
    Inv (after step s events) (past ++ selected step p s events) rest := by
  induction events generalizing s past with
  | nil => simpa [selected] using h
  | cons e events ih =>
      have hnext := ih (hstep s past e _ h)
      rw [after_cons, selected]
      by_cases hp : p (step s e).2 = true
      · simpa [hp] using hnext
      · simpa [hp] using hnext

/-- Two runs whose events match one by one stay related and answer alike. -/
theorem lockstep {step : S → E → S × O} {Match : E → E → Prop} {view : O → V}
    {R : S → S → Prop}
    (hstep : ∀ s s' e e', Match e e' → R s s' →
      R (step s e).1 (step s' e').1 ∧ view (step s e).2 = view (step s' e').2)
    {s s' : S} {events events' : List E} (h : R s s')
    (hmatch : List.Forall₂ Match events events') :
    R (after step s events) (after step s' events') ∧
      (answers step s events).map view = (answers step s' events').map view := by
  induction hmatch generalizing s s' with
  | nil => exact ⟨h, rfl⟩
  | cons hee _ ih =>
      obtain ⟨hnext, hview⟩ := hstep _ _ _ _ hee h
      obtain ⟨hafter, hanswers⟩ := ih hnext
      refine ⟨hafter, ?_⟩
      simp only [answers, List.map_cons]
      rw [hview, hanswers]

/-- Unwinding.  Two runs whose visible events match stay related and give
matching answers to them, when a hidden event of the first run keeps the
relation and a visible one keeps it on both sides at once. -/
theorem unwinding {step : S → E → S × O} {visible : E → Bool} {Match : E → E → Prop}
    {view : O → V} {R : S → S → List E → List E → Prop}
    (hhidden : ∀ s s' e events events', visible e = false →
      R s s' (e :: events) events' → R (step s e).1 s' events events')
    (hvisible : ∀ s s' e e' events events', visible e = true → Match e e' →
      R s s' (e :: events) (e' :: events') →
      R (step s e).1 (step s' e').1 events events' ∧
        view (step s e).2 = view (step s' e').2)
    {s s' : S} {events events' : List E} (h : R s s' events events')
    (hmatch : List.Forall₂ Match (events.filter visible) events') :
    R (after step s events) (after step s' events') [] [] ∧
      ((events.zip (answers step s events)).filter fun p => visible p.1).map
        (fun p => view p.2) = (answers step s' events').map view := by
  induction events generalizing s s' events' with
  | nil =>
      obtain rfl := List.forall₂_nil_left_iff.mp hmatch
      exact ⟨h, rfl⟩
  | cons e events ih =>
      by_cases hv : visible e = true
      · rw [List.filter_cons_of_pos hv] at hmatch
        rcases List.forall₂_cons_left_iff.mp hmatch with ⟨e', rest', hee, hrest, rfl⟩
        rcases hvisible s s' e e' events rest' hv hee h with ⟨hR, hview⟩
        rcases ih hR hrest with ⟨hafter, hanswers⟩
        refine ⟨hafter, ?_⟩
        simp only [answers, List.zip_cons_cons, List.filter_cons, hv, if_true,
          List.map_cons]
        rw [hview, hanswers]
      · rw [List.filter_cons_of_neg hv] at hmatch
        have hR := hhidden s s' e events events' (Bool.eq_false_iff.mpr hv) h
        rcases ih hR hmatch with ⟨hafter, hanswers⟩
        refine ⟨hafter, ?_⟩
        simp only [answers, List.zip_cons_cons, List.filter_cons, hv]
        exact hanswers

end Transition
