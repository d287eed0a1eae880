/-
The sliding-window limiter is exact.  A call is let through when fewer than its
limit of the earlier calls of its key that were let through lie in the closed
minute behind it; nothing else in the history of the process matters.
-/
import NetplexSupport.RateLimit
import NetplexSupport.Transition.Runs
import NetplexSupport.Transition.Window

namespace NetplexSupport

open Py Transition

/-! ### Runs of calls -/

/-- A call of `rate_ok`, with the clock reading it takes. -/
structure RateCall where
  key : Str
  limit : Int
  now : Int

def callRateOk (hits : Hits) (c : RateCall) : Hits × Bool :=
  let r := rateOk hits c.key c.limit c.now
  (r.2, r.1)

/-- `_hits` when the process starts. -/
def noHits : Hits := fun _ => []

/-- The calls of a run that were let through. -/
def letThrough (calls : List RateCall) : List RateCall :=
  selected callRateOk id noHits calls

/-- The calls of the key of `c` that lie in the closed window that ends at
`c`. -/
def charged (past : List RateCall) (c : RateCall) : List RateCall :=
  past.filter fun d => decide (d.key = c.key) && decide (c.now - d.now ≤ rateWindow)

/-- The times of the calls of one key. -/
def timesOf (key : Str) (past : List RateCall) : List Int :=
  (past.filter fun d => decide (d.key = key)).map RateCall.now

theorem recent_timesOf (past : List RateCall) (c : RateCall) :
    Window.recent rateWindow c.now (timesOf c.key past) =
      (charged past c).map RateCall.now := by
  rw [Window.recent, timesOf, List.filter_map, List.filter_filter, charged]
  congr 1
  apply List.filter_congr
  intro d _
  exact Bool.and_comm _ _

theorem timesOf_append (key : Str) (past more : List RateCall) :
    timesOf key (past ++ more) = timesOf key past ++ timesOf key more := by
  simp [timesOf]

theorem timesOf_self (c : RateCall) : timesOf c.key [c] = [c.now] := by
  simp [timesOf]

theorem timesOf_other {c : RateCall} {key : Str} (h : key ≠ c.key) :
    timesOf key [c] = [] := by
  simp [timesOf, Ne.symm h]

/-! ### The table keeps the window -/

/-- Every deque keeps the calls let through, at every clock reading to come. -/
structure KeepsAll (hits : Hits) (past calls : List RateCall) : Prop where
  clock : calls.Pairwise fun c d => c.now ≤ d.now
  keeps : ∀ c ∈ calls, ∀ key,
    Window.Keeps rateWindow (hits key) (timesOf key past) c.now

/-- The answer counts the calls let through. -/
theorem callRateOk_answer {hits : Hits} {past : List RateCall} {c : RateCall}
    (h : Window.Keeps rateWindow (hits c.key) (timesOf c.key past) c.now) :
    (callRateOk hits c).2 = true ↔ ((charged past c).length : Int) < c.limit := by
  have hlive : live c.now (hits c.key) = (charged past c).map RateCall.now :=
    h.expire_eq.trans (recent_timesOf past c)
  simp only [callRateOk, rateOk, hlive, List.length_map]
  by_cases hlimit : c.limit ≤ ((charged past c).length : Int)
  · simp [hlimit]
  · simp [hlimit, not_le.mp hlimit]

theorem keepsAll_step {hits : Hits} {past : List RateCall} {c : RateCall}
    {calls : List RateCall} (h : KeepsAll hits past (c :: calls)) :
    KeepsAll (callRateOk hits c).1
      (if (callRateOk hits c).2 then past ++ [c] else past) calls := by
  rcases h with ⟨hclock, hkeeps⟩
  rw [List.pairwise_cons] at hclock
  refine ⟨hclock.2, fun d hd key => ?_⟩
  apply Window.Keeps.mono _ (hclock.1 d hd)
  have hkey := hkeeps c List.mem_cons_self key
  by_cases heq : key = c.key
  · subst heq
    by_cases hlimit : c.limit ≤ ((live c.now (hits c.key)).length : Int)
    · simp only [callRateOk, rateOk, hlimit, if_true, Function.update_self]
      exact hkey.expired
    · simp only [callRateOk, rateOk, hlimit, if_false, if_true, Function.update_self]
      rw [timesOf_append, timesOf_self]
      exact hkey.expired.record
  · have hother : (callRateOk hits c).1 key = hits key := rateOk_other hits heq _ _
    rw [hother]
    by_cases hok : (callRateOk hits c).2 = true
    · simp only [hok, if_true, timesOf_append, timesOf_other heq, List.append_nil]
      exact hkey
    · simp only [hok]
      exact hkey

/-- Before every call of a run the table keeps the window. -/
theorem keepsAll_run {calls rest : List RateCall}
    (hclock : (calls ++ rest).Pairwise fun c d => c.now ≤ d.now) :
    KeepsAll (after callRateOk noHits calls) (letThrough calls) rest := by
  have hstart : KeepsAll noHits [] (calls ++ rest) :=
    ⟨hclock, fun c _ key => Window.Keeps.nil rateWindow c.now⟩
  have hrun := inv_selected (p := id) (fun _ _ _ _ h => keepsAll_step h) rest hstart
  rwa [List.nil_append] at hrun

theorem letThrough_concat (calls : List RateCall) (c : RateCall) :
    letThrough (calls ++ [c]) =
      if (callRateOk (after callRateOk noHits calls) c).2 then letThrough calls ++ [c]
      else letThrough calls := by
  rw [letThrough, selected_append]
  by_cases hok : (callRateOk (after callRateOk noHits calls) c).2 = true
  · simp [selected, letThrough, hok]
  · simp [selected, letThrough, hok]

/-- The calls of one key that were let through. -/
def letThroughOf (key : Str) (calls : List RateCall) : List RateCall :=
  (letThrough calls).filter fun d => decide (d.key = key)

theorem charged_letThroughOf (calls : List RateCall) (c : RateCall) :
    charged (letThroughOf c.key calls) c = charged (letThrough calls) c := by
  rw [charged, letThroughOf, List.filter_filter]
  apply List.filter_congr
  intro d _
  by_cases hkey : d.key = c.key
  · simp [hkey]
  · simp [hkey]

/-- Only the calls of the key that were let through have a say: without all the
others each of these is let through again, and the next call gets the same
answer. -/
theorem letThrough_replay {calls : List RateCall}
    (hclock : calls.Pairwise fun c d => c.now ≤ d.now) (key : Str) :
    letThrough (letThroughOf key calls) = letThroughOf key calls := by
  induction calls using List.reverseRecOn with
  | nil => rfl
  | append_singleton calls c ih =>
      have hbefore := ih (List.pairwise_append.mp hclock).1
      rw [letThroughOf, letThrough_concat]
      by_cases hok : (callRateOk (after callRateOk noHits calls) c).2 = true
      · rw [if_pos hok, List.filter_append]
        by_cases hkey : c.key = key
        · have hthere := (keepsAll_run hclock).keeps c List.mem_cons_self c.key
          have hsub : (letThroughOf key calls ++ [c]).Sublist (calls ++ [c]) :=
            (List.filter_sublist.trans (selected_sublist ..)).append_right [c]
          have hhere := (keepsAll_run (hclock.sublist hsub)).keeps c
            List.mem_cons_self c.key
          rw [hbefore] at hhere
          rw [callRateOk_answer hthere, ← charged_letThroughOf, hkey,
            ← callRateOk_answer hhere] at hok
          have hkeep : [c].filter (fun d => decide (d.key = key)) = [c] := by simp [hkey]
          rw [hkeep, ← letThroughOf, letThrough_concat, if_pos hok, hbefore]
        · have hdrop : [c].filter (fun d => decide (d.key = key)) = [] := by simp [hkey]
          rw [hdrop, List.append_nil]
          exact hbefore
      · rw [if_neg hok]
        exact hbefore

/-! ### A window of the limiter -/

/-- The calls of a key in the closed window that starts at `start`. -/
def within (key : Str) (start : Int) (past : List RateCall) : List RateCall :=
  past.filter fun d =>
    decide (d.key = key) && decide (start ≤ d.now) && decide (d.now ≤ start + rateWindow)

theorem within_append (key : Str) (start : Int) (past more : List RateCall) :
    within key start (past ++ more) = within key start past ++ within key start more :=
  List.filter_append ..

/-- What a window holds up to a call inside it is charged against that call. -/
theorem length_within_le_charged {start : Int} {c : RateCall} (past : List RateCall)
    (hc : c.now ≤ start + rateWindow) :
    (within c.key start past).length ≤ (charged past c).length := by
  apply List.Sublist.length_le
  apply List.monotone_filter_right
  intro d hd
  simp only [Bool.and_eq_true, decide_eq_true_eq] at hd ⊢
  exact ⟨hd.1.1, by omega⟩

theorem length_within_le {calls : List RateCall}
    (hclock : calls.Pairwise fun c d => c.now ≤ d.now) {key : Str} {limit : Int}
    (hlimit : 0 < limit) (hcalls : ∀ c ∈ calls, c.key = key → c.limit = limit)
    (start : Int) : ((within key start (letThrough calls)).length : Int) ≤ limit := by
  induction calls using List.reverseRecOn with
  | nil => exact hlimit.le
  | append_singleton calls c ih =>
      have hbefore := ih (List.pairwise_append.mp hclock).1
        fun d hd => hcalls d (List.mem_append_left [c] hd)
      rw [letThrough_concat]
      by_cases hok : (callRateOk (after callRateOk noHits calls) c).2 = true
      · rw [if_pos hok, within_append, List.length_append]
        by_cases hin : c.key = key ∧ start ≤ c.now ∧ c.now ≤ start + rateWindow
        · rcases hin with ⟨rfl, hstart, hend⟩
          have hthere := (keepsAll_run hclock).keeps c List.mem_cons_self c.key
          rw [callRateOk_answer hthere, hcalls c (by simp) rfl] at hok
          have hle := length_within_le_charged (letThrough calls) hend
          have hone : (within c.key start [c]).length = 1 := by simp [within, hstart, hend]
          omega
        · have hnone : within key start [c] = [] := by
            simpa [within, and_assoc] using hin
          rw [hnone]
          exact hbefore
      · rw [if_neg hok]
        exact hbefore

/-! ### The limiter -/

/-- In every run from an empty table whose clock never goes back, a call is let
through when fewer than its limit of the earlier calls of its key that were let
through lie in the closed minute behind it; deleting every other earlier call
changes no answer; and under a constant limit no closed minute holds more than
that many calls of a key that were let through. -/
theorem rateOk_run {calls : List RateCall}
    (hclock : calls.Pairwise fun c d => c.now ≤ d.now) :
    (∀ pre c post, calls = pre ++ c :: post →
      ((callRateOk (after callRateOk noHits pre) c).2 = true ↔
        ((charged (letThrough pre) c).length : Int) < c.limit) ∧
      (callRateOk (after callRateOk noHits pre) c).2 =
        (callRateOk (after callRateOk noHits (letThroughOf c.key pre)) c).2) ∧
    ∀ key limit, 0 < limit → (∀ c ∈ calls, c.key = key → c.limit = limit) →
      ∀ start, ((within key start (letThrough calls)).length : Int) ≤ limit := by
  refine ⟨?_, fun key limit hlimit hcalls => length_within_le hclock hlimit hcalls⟩
  rintro pre c post rfl
  have hthere := (keepsAll_run hclock).keeps c List.mem_cons_self c.key
  refine ⟨callRateOk_answer hthere, ?_⟩
  have hsub : (letThroughOf c.key pre ++ [c]).Sublist (pre ++ c :: post) :=
    (List.filter_sublist.trans (selected_sublist ..)).append
      (List.singleton_sublist.mpr List.mem_cons_self)
  have hhere := (keepsAll_run (hclock.sublist hsub)).keeps c List.mem_cons_self c.key
  rw [letThrough_replay (List.pairwise_append.mp hclock).1] at hhere
  rw [Bool.eq_iff_iff, callRateOk_answer hthere, callRateOk_answer hhere,
    charged_letThroughOf]

/-- Two calls a minute: a call exactly a minute after the first is still refused,
one a nanosecond later is not. -/
def minuteCalls : List RateCall :=
  [⟨"k", 2, 0⟩, ⟨"k", 2, 5⟩, ⟨"j", 2, 5⟩, ⟨"k", 2, 60000000000⟩, ⟨"k", 2, 60000000001⟩]

theorem rateOk_run_minute :
    answers callRateOk noHits minuteCalls = [true, true, true, false, true] ∧
      ∀ start, ((within "k" start (letThrough minuteCalls)).length : Int) ≤ 2 := by
  refine ⟨by decide +kernel, ?_⟩
  exact (@rateOk_run minuteCalls (by decide +kernel)).2 "k" 2 (by decide)
    (by decide +kernel)

end NetplexSupport
