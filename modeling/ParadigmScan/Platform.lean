import ParadigmScan.Encoding.Utf8
import ParadigmScan.Value

/-!
This module contains what a program leaves to the system that it runs on.
-/

namespace ParadigmScan

/--
The part of a system that is not described here. Reading a text and describing a value take calls that are nested like
the lists and tables in it, and the calls can be nested only so deeply.
-/
structure Platform where
  /-- The text that bytes stand for in an encoding that is known by its name only. -/
  decode : String → List UInt8 → List CodePoint := fun _ bytes => bytes.map (·.toNat)
  /-- Whether the nesting in the text of a settings file is too deep. -/
  isTooDeep : List Char → Bool := fun _ => false
  /-- Whether the nesting of a value is too deep to describe the value. -/
  isTooNested : Value → Bool := fun _ => false
  deriving Inhabited

end ParadigmScan
