import ParadigmScan.Encoding.Decode
import ParadigmScan.FileTree.Resolve
import ParadigmScan.Problem
import ParadigmScan.Ratio
import ParadigmScan.Value

/-!
This module contains everything that can end an operation early: problems that the program reports in its
own words, and faults that it passes on as they arise.
-/

namespace ParadigmScan

inductive ParserFault where
  /-- The input cannot be parsed. -/
  | badInput (message : String)
  /-- The parser does not work. -/
  | broken (message : String)
  /-- The system let the parser down. -/
  | system (message : String)
  /-- The user stopped the program. -/
  | interrupted (message : String)
  /-- The parser reports a problem itself. -/
  | problem (problem : Problem)
  /-- The parser leaves the program: what the caller is told, and what is left on the console. -/
  | exit (code : Int) (words : String)
  deriving Inhabited

inductive Fault where
  /-- A path holds the NUL character. -/
  | nulInPath
  /-- A name holds the NUL character. -/
  | nulInName
  | unknownEncoding (name : String)
  | undecodable (name : String) (error : Encoding.DecodeError)
  /-- A settings file is not UTF-8: where the first fault is, its bytes and what is wrong. -/
  | notUtf8 (position : Nat) (bytes : List UInt8) (error : Encoding.Utf8Error)
  /-- An integer has more digits than are converted from a text. -/
  | longInteger (digits : Nat)
  /-- An integer has more digits than are converted to a text. -/
  | longIntegerText
  /-- Calls are nested too deeply. -/
  | tooDeep
  | file (error : FileError) (path : String)
  | unknownVerbosity (value : Value)
  /-- A value of this type cannot be looked up. -/
  | unhashable (type : String)
  | unexpectedArgument (name : String)
  | repeatedArgument (name : String)
  | ratio (error : RatioError)
  | parser (fault : ParserFault)
  deriving Inhabited

namespace Fault

def decodeMessage (codec : String) (position : Nat) (bytes : List UInt8) (reason : String) : String :=
  match bytes with
  | [byte] =>
    let digits := String.ofList (Text.hex 2 byte.toNat)
    s!"'{codec}' codec can't decode byte 0x{digits} in position {position}: {reason}"
  | bytes =>
    let last := position + bytes.length - 1
    s!"'{codec}' codec can't decode bytes in position {position}-{last}: {reason}"

def encodingMessage (name : String) : Encoding.DecodeError → String
  | .binary =>
    s!"'{name}' is not a text encoding; use codecs.open() to handle arbitrary codecs"
  | .undefined => "undefined encoding"
  | .unmarked bits => s!"UTF-{bits} stream does not start with BOM"
  | .cannotReplace => "Unsupported error handling replace"
  | .notAscii position byte =>
    decodeMessage "ascii" position [byte] "ordinal not in range(128)"

def message : Fault → String
  | nulInPath => "embedded null byte"
  | nulInName => "embedded null character"
  | unknownEncoding name => s!"unknown encoding: {name}"
  | undecodable name error => encodingMessage name error
  | notUtf8 position bytes error => decodeMessage "utf-8" position bytes error.reason
  | longInteger digits =>
    s!"Exceeds the limit ({Value.maxDigits} digits) for integer string conversion: " ++
      s!"value has {digits} digits; use sys.set_int_max_str_digits() to increase the limit"
  | longIntegerText =>
    s!"Exceeds the limit ({Value.maxDigits} digits) for integer string conversion; " ++
      "use sys.set_int_max_str_digits() to increase the limit"
  | tooDeep => "maximum recursion depth exceeded"
  | file error path => error.message path
  | unknownVerbosity value => s!"Unknown verbosity: {value.describe}"
  | unhashable type => s!"unhashable type: '{type}'"
  | unexpectedArgument name =>
    s!"AnalysisConfig.__init__() got an unexpected keyword argument '{name}'"
  | repeatedArgument name =>
    s!"AnalysisConfig.__init__() got multiple values for argument '{name}'"
  | ratio error => error.message
  | parser (.badInput message) | parser (.broken message) | parser (.system message)
  | parser (.interrupted message) => message
  | parser (.problem problem) => problem.text
  | parser (.exit code _) => toString code

end Fault

def Value.describeFault? (platform : Platform) (value : Value) : Option Fault :=
  if platform.isTooNested value then some .tooDeep
  else if value.holdsLongInteger then some .longIntegerText
  else none

inductive Failure where
  | problem (problem : Problem)
  | fault (fault : Fault)
  deriving Inhabited

namespace Failure

def message : Failure → String
  | problem p => p.text
  | fault f => f.message

/--
What becomes of a failure when it is put into words. A problem with a value shows the value, and if that cannot be
done, the program ends with the reason.
-/
def worded (platform : Platform) : Failure → Failure
  | problem (.invalidSetting key value reason source) =>
    match value.describeFault? platform with
    | some reason => fault reason
    | none => problem (.invalidSetting key value reason source)
  | failure => failure

end Failure

end ParadigmScan
