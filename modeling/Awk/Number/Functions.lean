import Awk.Number.Basic

/-!
Elementary functions, total on all numbers.

Outside the domain of a function its value is NaN; a NaN is passed on.
-/

namespace Awk.Number

def sqrt : Number → Number
  | .nan s => .nan s
  | .real x => if x < 0.0 then .nan false else .real x.sqrt

def exp : Number → Number
  | .nan s => .nan s
  | .real x => .real x.exp

def log : Number → Number
  | .nan s => .nan s
  | .real x =>
      if x == 0.0 then negativeInfinity
      else if x < 0.0 then .nan false
      else .real x.log

def sin : Number → Number
  | .nan s => .nan s
  | .real x => if x.isFinite then .real x.sin else .nan false

def cos : Number → Number
  | .nan s => .nan s
  | .real x => if x.isFinite then .real x.cos else .nan false

def atan2 : Number → Number → Number
  | .nan s, _ => .nan s
  | .real _, .nan s => .nan s
  | .real y, .real x => .real (Float.atan2 y x)

end Awk.Number
