import Awk.Table

/-!
Options of a run.  Separators that are not given keep their usual values.
-/

namespace Awk

structure Options where
  fieldSeparator : Option String := none
  ofs : Option String := none
  ors : Option String := none
  rs : Option String := none
  presets : Table String := {}
  maxIterations : Int := 100000
  maxCalls : Int := 100
  cwd : Option String := none
  environ : Table String := {}

end Awk
