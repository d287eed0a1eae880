/-
Calls of two steps.  A call reads the state, holds what it read, and later writes
by it; the steps of different calls interleave freely, each one atomic.  When
between the read and the write of a call nothing is written that its read depends
on, the calls might as well run one at a time, in the order of their writes.
-/
import NetplexSupport.Transition.Component
import Mathlib.Logic.Function.Basic

namespace Transition

variable {S V O ι : Type*}

structure TwoStep (ι S V O : Type*) where
  /-- What the read of a call may return. -/
  Reads : ι → S → V → Prop
  /-- What it returns to a call that runs alone. -/
  read : ι → S → V
  write : ι → V → S → S × O

/-- A call that runs alone. -/
def TwoStep.alone (M : TwoStep ι S V O) (s : S) (i : ι) : S × O := M.write i (M.read i s) s

inductive Access (ι : Type*) where
  | read (i : ι)
  | write (i : ι)

/-- Where a call stands. -/
inductive Stage (V O : Type*) where
  | pending
  | holding (v : V)
  | answered (o : O)

/-- The state and the calls after a schedule of accesses. -/
inductive Interleaves [DecidableEq ι] (M : TwoStep ι S V O) (start : S) :
    List (Access ι) → S → (ι → Stage V O) → Prop where
  | nil : Interleaves M start [] start fun _ => .pending
  | read {schedule : List (Access ι)} {s : S} {stage : ι → Stage V O} {i : ι} {v : V}
      (hrun : Interleaves M start schedule s stage) (hi : stage i = .pending)
      (hv : M.Reads i s v) :
      Interleaves M start (schedule ++ [.read i]) s (Function.update stage i (.holding v))
  | write {schedule : List (Access ι)} {s : S} {stage : ι → Stage V O} {i : ι} {v : V}
      (hrun : Interleaves M start schedule s stage) (hi : stage i = .holding v) :
      Interleaves M start (schedule ++ [.write i]) (M.write i v s).1
        (Function.update stage i (.answered (M.write i v s).2))

/-- The calls that have written, in the order of their writes. -/
def written (schedule : List (Access ι)) : List ι :=
  schedule.filterMap fun e =>
    match e with
    | .read _ => none
    | .write i => some i

@[simp] theorem written_read (schedule : List (Access ι)) (i : ι) :
    written (schedule ++ [.read i]) = written schedule := by
  simp [written]

@[simp] theorem written_write (schedule : List (Access ι)) (i : ι) :
    written (schedule ++ [.write i]) = written schedule ++ [i] := by
  simp [written]

/-- Since the call read, nothing was written that it depends on. -/
def Undisturbed (Depends : ι → ι → Prop) (i : ι) (schedule : List (Access ι)) : Prop :=
  ∀ before between j, schedule = before ++ .read i :: between → .write j ∈ between →
    ¬ Depends i j

/-- Every call that has written was undisturbed when it did. -/
def Apart (Depends : ι → ι → Prop) (schedule : List (Access ι)) : Prop :=
  ∀ before i rest, schedule = before ++ .write i :: rest → Undisturbed Depends i before

theorem Undisturbed.of_append {Depends : ι → ι → Prop} {i : ι} {schedule : List (Access ι)}
    {e : Access ι} (h : Undisturbed Depends i (schedule ++ [e])) :
    Undisturbed Depends i schedule := by
  rintro before between j rfl hj
  exact h before (between ++ [e]) j (by simp) (List.mem_append_left _ hj)

/-- A call that has read does not depend on what is written next. -/
theorem Undisturbed.last {Depends : ι → ι → Prop} {i j : ι} {schedule : List (Access ι)}
    (h : Undisturbed Depends i (schedule ++ [.write j])) (hi : .read i ∈ schedule) :
    ¬ Depends i j := by
  obtain ⟨before, between, rfl⟩ := List.append_of_mem hi
  exact h before (between ++ [.write j]) j (by simp) (by simp)

theorem Apart.of_append {Depends : ι → ι → Prop} {schedule : List (Access ι)} {e : Access ι}
    (h : Apart Depends (schedule ++ [e])) : Apart Depends schedule := by
  rintro before i rest rfl
  exact h before i (rest ++ [e]) (by simp)

theorem Apart.nil (Depends : ι → ι → Prop) : Apart Depends [] := by
  intro before i rest h
  simp at h

theorem Apart.read {Depends : ι → ι → Prop} {schedule : List (Access ι)}
    (h : Apart Depends schedule) (i : ι) : Apart Depends (schedule ++ [.read i]) := by
  intro before j rest heq
  rcases concat_eq_append_cons_iff.mp heq with ⟨_, hread, _⟩ | ⟨rest', _, hschedule⟩
  · cases hread
  · exact h before j rest' hschedule

theorem Apart.write {Depends : ι → ι → Prop} {schedule : List (Access ι)} {i : ι}
    (h : Apart Depends schedule) (hi : Undisturbed Depends i schedule) :
    Apart Depends (schedule ++ [.write i]) := by
  intro before j rest heq
  rcases concat_eq_append_cons_iff.mp heq with ⟨rfl, hwrite, _⟩ | ⟨rest', _, hschedule⟩
  · rw [Access.write.inj hwrite]
    exact hi
  · exact h before j rest' hschedule

/-- A call that depends on nothing that was written at all. -/
theorem undisturbed_of_forall {Depends : ι → ι → Prop} {i : ι}
    {schedule : List (Access ι)} (h : ∀ j, .write j ∈ schedule → ¬ Depends i j) :
    Undisturbed Depends i schedule := by
  rintro before between j rfl hj
  exact h j (by simp [hj])

section

variable [DecidableEq ι] {M : TwoStep ι S V O} {start : S} {schedule : List (Access ι)}
  {s : S} {stage : ι → Stage V O}

theorem stage_update {i j : ι} {p q : Stage V O} (h : Function.update stage i p j = q) :
    (j = i ∧ p = q) ∨ (j ≠ i ∧ stage j = q) := by
  by_cases hj : j = i
  · subst hj
    exact Or.inl ⟨rfl, by simpa using h⟩
  · exact Or.inr ⟨hj, by simpa [hj] using h⟩

/-- What a schedule says about the calls. -/
theorem Interleaves.accesses (hrun : Interleaves M start schedule s stage) :
    (∀ i v, stage i = .holding v → .read i ∈ schedule) ∧
      ∀ i, i ∈ written schedule ↔ ∃ o, stage i = .answered o := by
  induction hrun with
  | nil => exact ⟨by simp, by simp [written]⟩
  | @read schedule s stage k v hrun hk hv ih =>
      constructor
      · intro i v' hi
        rcases stage_update hi with ⟨rfl, _⟩ | ⟨_, hi⟩
        · simp
        · exact List.mem_append_left _ (ih.1 i v' hi)
      · intro i
        rw [written_read, ih.2]
        by_cases hik : i = k
        · subst hik
          simp [hk]
        · simp [hik]
  | @write schedule s stage k v hrun hk ih =>
      constructor
      · intro i v' hi
        rcases stage_update hi with ⟨_, hpi⟩ | ⟨_, hi⟩
        · cases hpi
        · exact List.mem_append_left _ (ih.1 i v' hi)
      · intro i
        rw [written_write, List.mem_append, ih.2, List.mem_singleton]
        by_cases hik : i = k
        · subst hik
          simp
        · simp [hik]

/-- Interleaved calls that do not disturb each other are serial: the state is the
one of the calls run one at a time, and so is every answer. -/
theorem Interleaves.serial {Inv : List ι → S → Prop} {Depends : ι → ι → Prop}
    (hread : ∀ past s i v, Inv past s → M.Reads i s v → v = M.read i s)
    (hwrite : ∀ past s i, Inv past s → i ∉ past → Inv (past ++ [i]) (M.alone s i).1)
    (hkeep : ∀ past s i j, Inv past s → j ∉ past → ¬ Depends i j →
      M.read i (M.alone s j).1 = M.read i s)
    (hstart : Inv [] start) (hrun : Interleaves M start schedule s stage)
    (hapart : Apart Depends schedule) :
    s = after M.alone start (written schedule) ∧ Inv (written schedule) s ∧
      ∀ i o, stage i = .answered o → ∃ past rest, written schedule = past ++ i :: rest ∧
        i ∉ past ∧ Inv past (after M.alone start past) ∧
        o = (M.alone (after M.alone start past) i).2 := by
  -- A call that was not disturbed holds what it would read now.
  have h : s = after M.alone start (written schedule) ∧ Inv (written schedule) s ∧
      (∀ i v, stage i = .holding v → Undisturbed Depends i schedule → v = M.read i s) ∧
      ∀ i o, stage i = .answered o → ∃ past rest, written schedule = past ++ i :: rest ∧
        i ∉ past ∧ Inv past (after M.alone start past) ∧
        o = (M.alone (after M.alone start past) i).2 := by
    induction hrun with
    | nil => exact ⟨rfl, hstart, by simp, by simp⟩
    | @read schedule s stage k v hrun hk hv ih =>
        obtain ⟨hs, hinv, hheld, hanswers⟩ := ih hapart.of_append
        rw [written_read]
        refine ⟨hs, hinv, fun i v' hi hundisturbed => ?_, fun i o hi => ?_⟩
        · rcases stage_update hi with ⟨rfl, hpi⟩ | ⟨_, hi⟩
          · obtain rfl := Stage.holding.inj hpi
            exact hread _ _ _ _ hinv hv
          · exact hheld i v' hi hundisturbed.of_append
        · rcases stage_update hi with ⟨_, hpi⟩ | ⟨_, hi⟩
          · cases hpi
          · exact hanswers i o hi
    | @write schedule s stage k v hrun hk ih =>
        obtain ⟨hs, hinv, hheld, hanswers⟩ := ih hapart.of_append
        obtain rfl := hheld k v hk (hapart schedule k [] rfl)
        have hnew : k ∉ written schedule := by
          rw [hrun.accesses.2]
          rintro ⟨o, ho⟩
          rw [hk] at ho
          cases ho
        rw [written_write]
        refine ⟨?_, hwrite _ _ _ hinv hnew, fun i v hi hundisturbed => ?_, fun i o hi => ?_⟩
        · rw [after_append, ← hs]
          rfl
        · rcases stage_update hi with ⟨_, hpi⟩ | ⟨_, hi⟩
          · cases hpi
          · rw [hheld i v hi hundisturbed.of_append]
            exact (hkeep _ _ _ _ hinv hnew
              (hundisturbed.last (hrun.accesses.1 i v hi))).symm
        · rcases stage_update hi with ⟨rfl, hpi⟩ | ⟨_, hi⟩
          · refine ⟨written schedule, [], rfl, hnew, ?_⟩
            rw [← hs]
            exact ⟨hinv, (Stage.answered.inj hpi).symm⟩
          · obtain ⟨past, rest, hpast, ho⟩ := hanswers i o hi
            exact ⟨past, rest ++ [k], by rw [hpast]; simp, ho⟩
  exact ⟨h.1, h.2.1, h.2.2.2⟩

end

end Transition
