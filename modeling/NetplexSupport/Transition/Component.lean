/-
Machines made of parts.  A run of the whole emits the events of a part as it goes
along, each read off the state it arrives in; a table that every step extends by the
rows of its events lists, after a run, the rows of them all.  And a run may be
watched by a monitor that says of each event whether it matters; when those that do
not leave what matters alone, they can be deleted.
-/
import NetplexSupport.Transition.Runs

namespace Transition

variable {S E O T W : Type*}

/-! ### The last event of a run -/

theorem answers_concat (step : S → E → S × O) (s : S) (events : List E) (e : E) :
    answers step s (events ++ [e]) =
      answers step s events ++ [(step (after step s events) e).2] := by
  induction events generalizing s with
  | nil => rfl
  | cons first events ih =>
      rw [List.cons_append, answers, answers, ih, List.cons_append, after_cons]

theorem concat_eq_append_cons_iff {events past rest : List E} {last e : E} :
    events ++ [last] = past ++ e :: rest ↔
      (past = events ∧ e = last ∧ rest = []) ∨
        ∃ rest', rest = rest' ++ [last] ∧ events = past ++ e :: rest' := by
  constructor
  · intro h
    rcases List.eq_nil_or_concat rest with rfl | ⟨rest', final, rfl⟩
    · obtain ⟨hpast, hlast⟩ := List.append_inj' h rfl
      exact Or.inl ⟨hpast.symm, (List.singleton_inj.mp hlast).symm, rfl⟩
    · rw [List.concat_eq_append, ← List.cons_append, ← List.append_assoc] at h
      obtain ⟨hevents, hlast⟩ := List.append_inj' h rfl
      rw [List.singleton_inj] at hlast
      exact Or.inr ⟨rest', by rw [List.concat_eq_append, hlast], hevents⟩
  · rintro (⟨rfl, rfl, rfl⟩ | ⟨rest', rfl, rfl⟩)
    · rfl
    · rw [List.append_assoc, List.cons_append]

/-! ### Parts -/

/-- The events of a part, emitted along a run. -/
def emitted (step : S → E → S × O) (emit : S → E → List T) (s : S) : List E → List T
  | [] => []
  | e :: events => emit s e ++ emitted step emit (step s e).1 events

@[simp] theorem emitted_nil (step : S → E → S × O) (emit : S → E → List T) (s : S) :
    emitted step emit s [] = [] := rfl

@[simp] theorem emitted_cons (step : S → E → S × O) (emit : S → E → List T) (s : S) (e : E)
    (events : List E) : emitted step emit s (e :: events) =
      emit s e ++ emitted step emit (step s e).1 events := rfl

/-- An emitted event was emitted by an event of the run, where it arrived. -/
theorem mem_emitted {step : S → E → S × O} {emit : S → E → List T} {s : S}
    {events : List E} {t : T} :
    t ∈ emitted step emit s events ↔ ∃ past e rest, events = past ++ e :: rest ∧
      t ∈ emit (after step s past) e := by
  induction events generalizing s with
  | nil => simp
  | cons e events ih =>
      rw [emitted_cons, List.mem_append, ih]
      constructor
      · rintro (hfirst | ⟨past, e', rest, rfl, hlater⟩)
        · exact ⟨[], e, events, rfl, hfirst⟩
        · exact ⟨e :: past, e', rest, rfl, hlater⟩
      · rintro ⟨past, e', rest, hevents, ht⟩
        cases past with
        | nil =>
            obtain ⟨rfl, rfl⟩ := List.cons.inj hevents
            exact Or.inl ht
        | cons first past =>
            obtain ⟨rfl, rfl⟩ := List.cons.inj hevents
            exact Or.inr ⟨past, e', rest, rfl, ht⟩

/-- A table that every step extends by the rows of what it emits lists the rows of
the whole run. -/
theorem ledger_after {R : Type*} {step : S → E → S × O} {emit : S → E → List T}
    {table : S → List R} {Writes : T → R → Prop}
    (hstep : ∀ s e, ∃ rows, table (step s e).1 = table s ++ rows ∧
      List.Forall₂ Writes (emit s e) rows)
    (s : S) (events : List E) :
    ∃ rows, table (after step s events) = table s ++ rows ∧
      List.Forall₂ Writes (emitted step emit s events) rows := by
  induction events generalizing s with
  | nil => exact ⟨[], (List.append_nil _).symm, .nil⟩
  | cons e events ih =>
      obtain ⟨first, htable, hfirst⟩ := hstep s e
      obtain ⟨rest, hafter, hrest⟩ := ih (step s e).1
      refine ⟨first ++ rest, ?_, List.rel_append hfirst hrest⟩
      rw [after_cons, hafter, htable, List.append_assoc]

/-! ### Watched runs -/

/-- The answers to the events that a monitor selects. -/
def watched (watch : W → E → W × Bool) (step : S → E → S × O) (w : W) (s : S) :
    List E → List O
  | [] => []
  | e :: events =>
      if (watch w e).2 then
        (step s e).2 :: watched watch step (watch w e).1 (step s e).1 events
      else watched watch step (watch w e).1 (step s e).1 events

/-- Unwinding under a monitor.  When a hidden event keeps two runs related, and a
selected one keeps them related and is answered alike on both sides, the run
without the hidden events ends related to the whole one and gives the same
answers. -/
theorem unwinding_watched {watch : W → E → W × Bool} {step : S → E → S × O}
    {R : W → S → S → List E → Prop}
    (hhidden : ∀ w s s' e events, (watch w e).2 = false → R w s s' (e :: events) →
      R (watch w e).1 (step s e).1 s' events)
    (hselected : ∀ w s s' e events, (watch w e).2 = true → R w s s' (e :: events) →
      R (watch w e).1 (step s e).1 (step s' e).1 events ∧ (step s e).2 = (step s' e).2)
    {w : W} {s s' : S} {events : List E} (h : R w s s' events) :
    R (after watch w events) (after step s events)
        (after step s' (selected watch id w events)) [] ∧
      watched watch step w s events = answers step s' (selected watch id w events) := by
  induction events generalizing w s s' with
  | nil => exact ⟨h, rfl⟩
  | cons e events ih =>
      simp only [after_cons, watched, selected, id_eq]
      cases he : (watch w e).2 with
      | false => exact ih (hhidden w s s' e events he h)
      | true =>
          obtain ⟨hR, hanswer⟩ := hselected w s s' e events he h
          obtain ⟨hafter, hanswers⟩ := ih hR
          refine ⟨hafter, ?_⟩
          simp only [if_true, answers]
          rw [hanswer, hanswers]

end Transition
