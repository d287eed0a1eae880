/-
`app/ratelimit.py`: the sliding-window rate limiter.  `time.monotonic()` is a
number of nanoseconds.
-/
import NetplexSupport.Python.Text

namespace NetplexSupport

open Py

/-- `_RATE_WINDOW`, 60 seconds. -/
def rateWindow : Int := 60000000000

/-- `_hits`: for each key the times of its recorded calls, oldest first; a key
never seen has none. -/
abbrev Hits := Str → List Int

/-- The deque after the calls that left the window are popped. -/
def live (now : Int) (q : List Int) : List Int :=
  q.dropWhile fun t => decide (rateWindow < now - t)

/-- `rate_ok`: the answer, and the table. -/
def rateOk (hits : Hits) (key : Str) (limit now : Int) : Bool × Hits :=
  let q := live now (hits key)
  if limit ≤ q.length then (false, Function.update hits key q)
  else (true, Function.update hits key (q ++ [now]))

/-! ### Frames -/

/-- The answer depends on the key's own deque only. -/
theorem rateOk_congr {hits hits' : Hits} {key : Str} (h : hits key = hits' key)
    (limit now : Int) :
    (rateOk hits key limit now).1 = (rateOk hits' key limit now).1 ∧
      (rateOk hits key limit now).2 key = (rateOk hits' key limit now).2 key := by
  simp only [rateOk, h]
  by_cases hlimit : limit ≤ ((live now (hits' key)).length : Int)
  · simp [hlimit]
  · simp [hlimit]

/-- Other keys are untouched. -/
theorem rateOk_other (hits : Hits) {key other : Str} (h : other ≠ key)
    (limit now : Int) : (rateOk hits key limit now).2 other = hits other := by
  unfold rateOk
  by_cases hlimit : limit ≤ ((live now (hits key)).length : Int)
  · simp [hlimit, Function.update_of_ne h]
  · simp [hlimit, Function.update_of_ne h]

end NetplexSupport
