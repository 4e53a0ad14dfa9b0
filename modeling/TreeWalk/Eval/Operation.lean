import TreeWalk.Failure

/-!
# Operations on values

The operators applied to objects. An operator is given by its token: the token's kind says what is
done, and the token is what a runtime error blames. An operation that wants numbers gives both or
fails; equality takes anything.

* `requireNumber`, `requireNumbers` : operands as doubles;
* `applyUnary`, `applyBinary` : the value of an operation; an object that is no token of a fitting
  kind is refused before the operands are looked at.
-/

namespace TreeWalk

open Except

/-- The double of a number. -/
def Object.number? : Object → Option Double
  | .value (.number x) => some x
  | _ => none

def requireNumber (token o : Object) : Except Failure Double :=
  match o.number? with
  | some x => ok x
  | none => error (.runtime (.operandNotNumber token))

def requireNumbers (token left right : Object) : Except Failure (Double × Double) :=
  match left.number?, right.number? with
  | some x, some y => ok (x, y)
  | _, _ => error (.runtime (.operandNotNumber token))

/-- Numbers are added and strings are joined. -/
def applyPlus (token : Object) : Object → Object → Except Failure Value
  | .value (.number x), .value (.number y) => ok (.number (x.add y))
  | .value (.string a _), .value (.string b _) => ok (.string (a ++ b) none)
  | _, _ => error (.runtime (.operandsDiffer token))

def applyUnary (token operand : Object) : Except Failure Value :=
  match token.operator? with
  | some .bang => ok (.bool !operand.truthy)
  | some .minus => do
    let x ← requireNumber token operand
    return .number x.neg
  | _ => error (.unsupportedUnary token)

def applyBinary (token left right : Object) : Except Failure Value :=
  match token.operator? with
  | some .plus => applyPlus token left right
  | some .minus => arithmetic Double.sub
  | some .star => arithmetic Double.mul
  | some .slash => arithmetic Double.divide
  | some .greater => comparison fun x y => y.lt x
  | some .greaterEqual => comparison fun x y => y.le x
  | some .less => comparison Double.lt
  | some .lessEqual => comparison Double.le
  | some .equalEqual => ok (.bool (left.equals right))
  | some .bangEqual => ok (.bool !left.equals right)
  | some .bang | none => error (.unsupportedBinary token)
where
  arithmetic (operation : Double → Double → Double) : Except Failure Value := do
    let (x, y) ← requireNumbers token left right
    return .number (operation x y)
  comparison (relation : Double → Double → Bool) : Except Failure Value := do
    let (x, y) ← requireNumbers token left right
    return .bool (relation x y)

end TreeWalk
