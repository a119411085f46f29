/-!
This module contains log records: how much a record weighs, which part of the program wrote it, and its
message.
-/

namespace ParadigmScan

namespace Log

/--
The weight of a record. Records below a threshold are dropped.
-/
abbrev Level := Int

namespace Level

def debug : Level := 10
def info : Level := 20
def warning : Level := 30
def error : Level := 40
def critical : Level := 50

def name (level : Level) : String :=
  match level with
  | 0 => "NOTSET"
  | 10 => "DEBUG"
  | 20 => "INFO"
  | 30 => "WARNING"
  | 40 => "ERROR"
  | 50 => "CRITICAL"
  | level => s!"Level {level}"

end Level

structure Record where
  level : Level
  logger : String
  message : String
  deriving DecidableEq, Repr, Inhabited

def packageLogger : String := "paradigm_meter"

def loggerName (name : String) : String :=
  if name.isEmpty || name == packageLogger then packageLogger
  else if name.startsWith (packageLogger ++ ".") then name
  else packageLogger ++ "." ++ name

def debug (logger message : String) : Record :=
  { level := .debug, logger := loggerName logger, message }

end Log

end ParadigmScan
