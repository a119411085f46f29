import ParadigmScan.Json
import ParadigmScan.Ratio
import ParadigmScan.Tally
import ParadigmScan.Text.Quoted

/-!
This module contains the result of a scan and its two written forms: a text for people and a JSON
object for programs. Both show the ratio of the object-oriented to the functional total.
-/

namespace ParadigmScan

/--
The result of scanning one directory. `files` is the number of source files that were found, also of
those that could not be read.
-/
structure Report where
  directory : String
  files : Int
  totals : Tally
  deriving DecidableEq, Repr, Inhabited

namespace Report

def ofTallies (directory : String) (files : Int) (tallies : List Tally) : Report :=
  { directory, files, totals := Tally.sum tallies }

def ratio (r : Report) : Except RatioError (Option Ratio) :=
  Ratio.ofTotals r.totals.oop r.totals.fp

def ratioText : Option Ratio → String
  | none => "inf"
  | some ratio => ratio.display

def toText (r : Report) : Except RatioError String := do
  let ratio ← r.ratio
  let t := r.totals
  return "\n".intercalate [
    s!"OOP: {t.oop} ({t.classes} classes + {t.methods} methods)",
    s!"FP:  {t.fp} ({t.functions} functions + {t.arrows} arrows)",
    s!"Ratio (OOP:FP): {ratioText ratio}:1",
    s!"Files: {r.files}"]

def toJson (r : Report) : Except RatioError Json := do
  let ratio ← r.ratio
  let t := r.totals
  return .object [
    ("directory", .text r.directory),
    ("files", .integer r.files),
    ("oop", .object [
      ("total", .integer t.oop),
      ("classes", .integer t.classes),
      ("methods", .integer t.methods)]),
    ("fp", .object [
      ("total", .integer t.fp),
      ("functions", .integer t.functions),
      ("arrowFunctions", .integer t.arrows)]),
    ("ratio", match ratio with
      | none => .null
      | some ratio => .number ratio.toBinary64)]

def toJsonText (layout : Json.Layout) (r : Report) : Except RatioError String :=
  (·.render layout) <$> r.toJson

end Report

inductive Format where
  | text
  | json (layout : Json.Layout)
  deriving DecidableEq, Repr, Inhabited

namespace Format

def write : Format → Report → Except RatioError String
  | text, r => r.toText
  | json layout, r => r.toJsonText layout

def ofName? : String → Option Format
  | "text" => some .text
  | "json" => some (.json .compact)
  | _ => none

def unknownMessage (name : String) : String :=
  s!"Unknown formatter: {Text.quoted name}. Choose from: json, text"

end Format

end ParadigmScan
