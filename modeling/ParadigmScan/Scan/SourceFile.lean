import ParadigmScan.Scan.Trace
import ParadigmScan.Syntax.Count
import ParadigmScan.TypeScript.Program

/-!
This module contains the way from a source file to its tally: reading, parsing and counting. A file that
cannot be read or parsed counts nothing.
-/

namespace ParadigmScan

/--
A parser of sources, by what its engines make of them. Some parsers keep their engines and announce every new one in
the log.
-/
structure Parser where
  read : Engine → List UInt8 → Except ParserFault (Option Tree)
  announces : Bool

namespace Parser

def parse (parser : Parser) (dialect : Dialect) (bytes : List UInt8) :
    Except ParserFault (Option Tree) :=
  parser.read (.ofDialect dialect) bytes

/--
The parser for the grammars of both languages. It turns every text into a tree.
-/
def grammar : Parser where
  read engine bytes :=
    .ok (some (.ofText engine.language (Encoding.toChars (Encoding.decodeUtf8 bytes))))
  announces := true

def announcement (dialect : Dialect) : Log.Record :=
  Log.debug "scanning.treesitter_parser" s!"Initialized tree-sitter parser for {dialect.name}"

def prepare (parser : Parser) (dialect : Dialect) : Scan Engine := do
  let trace ← get
  match trace.ready.get? dialect with
  | some engine => return engine
  | none =>
    if parser.announces then
      set { trace with ready := trace.ready.add dialect }
      Scan.log (announcement dialect)
    return .ofDialect dialect

def call (parser : Parser) (dialect : Dialect) (bytes : List UInt8) :
    Scan (Except ParserFault (Option Tree)) := do
  let engine ← parser.prepare dialect
  Scan.emit (.parsed dialect bytes)
  return parser.read engine bytes

end Parser

abbrev ParserSession := List (Dialect × List UInt8) → Parser

instance : Coe Parser ParserSession := ⟨fun parser _ => parser⟩

namespace SourceFile

def readText (host : Host) (encodingName : String) (path : Path) :
    Except Failure (List CodePoint) := do
  if Path.hasNul encodingName then throw (.fault .nulInName)
  if Path.hasNul path.text then throw (.fault .nulInPath)
  match host.readBytes path with
  | .error error =>
    throw (.problem (.fileAccess path s!"Cannot read file: {error.message path.text}"))
  | .ok bytes =>
    match Encoding.ofName? encodingName with
    | none => throw (.fault (.unknownEncoding encodingName))
    | some encoding =>
      match encoding.decode host.platform.decode bytes with
      | .ok text => return Encoding.unifyLines text
      | .error error => throw (.fault (.undecodable encodingName error))

def surrogateMessage (text : List CodePoint) (position length : Nat) : String :=
  if length == 1 then
    let digits := String.ofList (Text.hex 4 (text.getD position 0))
    s!"'utf-8' codec can't encode character '\\u{digits}' in position {position}: " ++
      "surrogates not allowed"
  else
    s!"'utf-8' codec can't encode characters in position {position}-{position + length - 1}: " ++
      "surrogates not allowed"

def parse (parser : ParserSession) (path : Path) (text : List CodePoint) : Scan (Option Tree) := do
  let dialect := Dialect.ofPath path.text
  match Encoding.surrogateRun? text with
  | some (position, length) =>
    Scan.report (.parsing path dialect.name (surrogateMessage text position length))
  | none =>
    let calls := (← get).calls
    match ← (parser calls).call dialect (Encoding.encodeUtf8 text) with
    | .ok tree => return tree
    | .error (.badInput message) => Scan.report (.parsing path dialect.name message)
    | .error (.problem problem) => Scan.report problem
    | .error fault => Scan.pass (.parser fault)

def tallyOf (tree : Option Tree) : Tally :=
  (tree.map Tree.tally).getD .zero

def load (host : Host) (parser : ParserSession) (encodingName : String) (path : Path) :
    Scan (Option Tree) := do
  let text ← readText host encodingName path
  parse parser path text

/--
The tally of a source file. A problem with the file is logged and the file counts nothing; faults are passed
on.
-/
def tally (host : Host) (parser : ParserSession) (encodingName : String) (path : Path) : Scan Tally :=
  tryCatch (tallyOf <$> load host parser encodingName path) fun
    | .problem problem =>
      if problem.isAnalysis then do
        Scan.debug "analysis.counter" s!"Skipping {path.text}: {problem.text}"
        return .zero
      else
        throw (.problem problem)
    | .fault fault => throw (.fault fault)

end SourceFile

end ParadigmScan
