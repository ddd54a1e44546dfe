import Relational.Eval.Evaluator
import Relational.Value.Access

/-!
# Calling values

Closures bind their pattern and evaluate their body in the scope they captured, collections look
their argument up, and native functions do what they are for. `fix` and `fixt` make what
`recursiveFunction` and `recursiveTuple` give, `callNative` calls a native function, and `callStep`
calls any value.

> A recursive function `fix f` answers a call by unfolding once: it calls `f` with a recursive
> function of the same kind and then calls what it gets. A recursive tuple `fixt f` is found by
> trying `f` on the empty tuple; its functions unfold when they are called, and its other
> attributes stay as they were found.
-/

namespace Relational

/-- Whether a value is a closure or a native function. -/
def Value.isFunction : Value → Bool
  | .closure _ _ _ _ | .native _ _ => true
  | _ => false

/-- The recursive function of `f`. -/
def recursiveFunction (f : Value) : Run Value := do
  let identity ← Run.fresh
  pure (.native identity (.unfold f))

/-- The attributes of a recursive tuple: functions are replaced by ones that unfold. -/
def recursiveAttrs (f : Value) : List (String × Value) → Run (List (String × Value))
  | [] => pure []
  | (name, v) :: rest => do
    if v.isFunction then
      let identity ← Run.fresh
      let others ← recursiveAttrs f rest
      pure ((name, .native identity (.unfoldAttr f name)) :: others)
    else
      let others ← recursiveAttrs f rest
      pure ((name, v) :: others)

namespace Evaluator

/-- The recursive tuple of `f`. -/
def recursiveTuple (ev : Evaluator) (f : Value) : Run Value := do
  let probe ← ev.call f (.tuple [])
  match probe with
  | .tuple attrs => do
    let attrs ← recursiveAttrs f attrs
    pure (.tuple attrs)
  | v => Run.fail (.recursionResult v.shown)

/-- The result of a native function. -/
def callNative (ev : Evaluator) (function : Native) (arg : Value) : Run Value :=
  match function with
  | .fix => recursiveFunction arg
  | .fixt => ev.recursiveTuple arg
  | .unfold f => do
    let this ← recursiveFunction f
    let unfolded ← ev.call f this
    ev.call unfolded arg
  | .unfoldAttr f attr => do
    let this ← ev.recursiveTuple f
    let unfolded ← ev.call f this
    let function ← Run.ofExcept (unfolded.getAttr attr)
    ev.call function arg
  | .loader name => Run.fail (.noBackend name arg.text)
  | .hosted _ f => ev.call f arg

/-- The result of calling a value. -/
def callStep (ev : Evaluator) (f arg : Value) : Run Value :=
  match f with
  | .closure _ param body captured => ev.enter param body captured arg
  | .native _ function => ev.callNative function arg
  | f => Run.ofExcept (f.lookup arg)

end Evaluator

end Relational
