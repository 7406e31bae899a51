import TableService.Metrics.Basic
import TableService.Worker.Basic

/-!
# A worker over scripted passes

- `PassEnd`: what a pass comes to, and whether the loop takes it for a failure.
- `ScriptedPass`: how long a pass takes and what it comes to.
- `scriptedJob`: plays a script. After its end every pass succeeds at once.
-/

namespace TableService

/-- What a pass comes to: how many entries it has processed, why it failed, or what it said when it
crashed. -/
inductive PassEnd where
  | processed (entries : Nat)
  | failed (reason : String)
  | crashed (message : String)
deriving DecidableEq

/-- What the loop makes of a pass. A crash is a failure like any other, and neither ends the
loop. -/
def PassEnd.isFailure : PassEnd → Bool
  | processed _ => false
  | failed _ | crashed _ => true

/-- A pass that is played: it lasts so many milliseconds and then ends like this. -/
structure ScriptedPass where
  delay : Nat := 0
  ending : PassEnd := .processed 0
deriving DecidableEq

/-- Whether the loop takes the pass for a failure. -/
def ScriptedPass.failed (p : ScriptedPass) : Bool := p.ending.isFailure

/-- The passes to come, and the metrics if they are attached. -/
structure Script where
  passes : List ScriptedPass
  metrics : Option Metrics := none

/-- A pass of the script is one task, which lasts as long as the pass. -/
def scriptedJob (interval : Nat) (pos : 0 < interval) : Job Script Nat Unit where
  interval
  interval_pos := pos
  fetch s :=
    match s.passes with
    | [] => ((false, []), s)
    | p :: rest => ((p.failed, [p.delay]), { s with passes := rest })
  start delay s := ((delay, ()), s)
  finish _ s := s
  record failed s := { s with metrics := s.metrics.map (·.recordPass failed) }

end TableService
