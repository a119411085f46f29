import ParadigmScan.Encoding.Basic
import ParadigmScan.Encoding.Bytewise
import ParadigmScan.Encoding.Escaped
import ParadigmScan.Encoding.Punycode
import ParadigmScan.Encoding.Units
import ParadigmScan.Encoding.Utf7

/-!
This module contains the decoding of whole files: bytes become text, what cannot be decoded is replaced,
and every line ends with one line feed.
-/

namespace ParadigmScan

namespace Encoding

inductive DecodeError where
  /-- The encoding is not one of text. -/
  | binary
  /-- The encoding refuses everything. -/
  | undefined
  /-- The mark of the byte order is missing; units have this many bits. -/
  | unmarked (bits : Nat)
  /-- The encoding cannot replace what it cannot decode. -/
  | cannotReplace
  /-- A byte outside of ASCII stands where only ASCII can be decoded. -/
  | notAscii (position : Nat) (byte : UInt8)
  deriving DecidableEq, Repr, Inhabited

def utf8Mark : List UInt8 := [0xEF, 0xBB, 0xBF]

/--
Decodes UTF-8 after a mark at the start. Bytes that end before the mark is complete are nothing.
-/
def decodeUtf8Marked (bytes : List UInt8) : List CodePoint :=
  if bytes.length < utf8Mark.length && bytes.isPrefixOf utf8Mark then []
  else if utf8Mark.isPrefixOf bytes then decodeUtf8 (bytes.drop utf8Mark.length)
  else decodeUtf8 bytes

/--
Decodes bytes. The encodings that are known by their name only are decoded by `further`.
-/
def decode (encoding : Encoding) (further : String → List UInt8 → List CodePoint)
    (bytes : List UInt8) : Except DecodeError (List CodePoint) :=
  match encoding with
  | utf8 => .ok (decodeUtf8 bytes)
  | utf8Marked => .ok (decodeUtf8Marked bytes)
  | ascii => .ok (bytes.map asciiChar)
  | latin1 => .ok (bytes.map (·.toNat))
  | latin9 => .ok (bytes.map latin9Char)
  | windows1252 => .ok (bytes.map windows1252Char)
  | utf16 => (decodeMarked 2 decodeUtf16 bytes).elim (.error (.unmarked 16)) .ok
  | utf16Little => .ok (decodeUtf16 .little bytes)
  | utf16Big => .ok (decodeUtf16 .big bytes)
  | utf32 => (decodeMarked 4 decodeUtf32 bytes).elim (.error (.unmarked 32)) .ok
  | utf32Little => .ok (decodeUtf32 .little bytes)
  | utf32Big => .ok (decodeUtf32 .big bytes)
  | utf7 => .ok (decodeUtf7 none bytes)
  | escaped => .ok (decodeEscaped bytes)
  | rawEscaped => .ok (decodeRawEscaped bytes)
  | domainName => .error .cannotReplace
  | punycode =>
    match decodePunycode bytes with
    | .ok text => .ok text
    | .error (position, byte) => .error (.notAscii position byte)
  | undefined => .error .undefined
  | binary => .error .binary
  | other name => .ok (further name bytes)

def unifyLines : List CodePoint → List CodePoint
  | 13 :: 10 :: rest => 10 :: unifyLines rest
  | 13 :: rest => 10 :: unifyLines rest
  | c :: rest => c :: unifyLines rest
  | [] => []

end Encoding

end ParadigmScan
