/-!
# Diagnostics

A deprecated construct is reported to a sink, but only once: a latch is set before the first
report and stays set, even if the sink fails on it.

> At most one message reaches the sink, and the latch is set exactly when one has.
-/

namespace Relational

/-- Where reports go. A failing sink takes the report and then fails. -/
inductive Sink where
  | recording
  | failing (reason : String)
deriving DecidableEq

/-- The state of the latch, and the messages that reached the sink. -/
structure Diagnostics where
  warned : Bool
  messages : List String

namespace Diagnostics

/-- The latch before any report. -/
def initial : Diagnostics := ⟨false, []⟩

/-- Reports a message unless one was reported before. Also gives the reason if the sink failed. -/
def warnOnce (d : Diagnostics) (sink : Sink) (message : String) : Option String × Diagnostics :=
  if d.warned then (none, d)
  else
    let d : Diagnostics := ⟨true, d.messages ++ [message]⟩
    match sink with
    | .recording => (none, d)
    | .failing reason => (some reason, d)

/-- A latch that is set lets nothing through. -/
theorem warnOnce_of_warned {d : Diagnostics} (h : d.warned = true) (sink : Sink)
    (message : String) : d.warnOnce sink message = (none, d) := by
  simp [warnOnce, h]

/-- Only a failing sink fails, and for its own reason. -/
theorem sink_eq_failing {d d' : Diagnostics} {sink : Sink} {message reason : String}
    (h : d.warnOnce sink message = (some reason, d')) : sink = .failing reason := by
  unfold warnOnce at h
  split at h
  next => cases h
  next =>
    cases sink with
    | recording => cases h
    | failing other =>
      obtain ⟨heq, -⟩ := Prod.mk.inj h
      rw [Option.some.inj heq]

/-- What is said about the old form of conditions. -/
def ifDeprecation : String :=
  "operator if is deprecated and will be removed soon, " ++
  "please use operator cond instead. Operator cond sample: " ++
  "let a = cond \x7b2 > 1: 1, 2 > 3: 2, _: 3\x7d"

/-- The state as text. -/
def describe (d : Diagnostics) : String :=
  "Diagnostics \x7b warned: " ++ (if d.warned then "true" else "false") ++ " \x7d"

end Diagnostics

end Relational
