/-! Text encodings by name, and what it means for bytes to be rejected by one. -/

namespace LocalizationAudit

abbrev Bytes := List UInt8

inductive Encoding where
  | utf8
  | utf16
  | utf16be
  | utf16le
  | ascii
  | latin1
  deriving DecidableEq, Repr

def Encoding.all : List Encoding :=
  [.utf8, .utf16, .utf16be, .utf16le, .ascii, .latin1]

def Encoding.name : Encoding → String
  | .utf8 => "utf-8"
  | .utf16 => "utf-16"
  | .utf16be => "utf-16-be"
  | .utf16le => "utf-16-le"
  | .ascii => "ascii"
  | .latin1 => "latin-1"

def Encoding.ofName? (name : String) : Option Encoding :=
  Encoding.all.find? fun encoding => encoding.name == name

inductive DecodeReason where
  | invalidStartByte
  | invalidContinuationByte
  | unexpectedEnd
  | truncated
  | illegalSurrogate
  | illegalEncoding
  | outsideAscii
  deriving DecidableEq, Repr

def DecodeReason.text : DecodeReason → String
  | .invalidStartByte => "invalid start byte"
  | .invalidContinuationByte => "invalid continuation byte"
  | .unexpectedEnd => "unexpected end of data"
  | .truncated => "truncated data"
  | .illegalSurrogate => "illegal UTF-16 surrogate"
  | .illegalEncoding => "illegal encoding"
  | .outsideAscii => "ordinal not in range(128)"

/--
The first place where bytes leave an encoding: `start` is included and `stop` is not.
The encoding named is the one of the byte order in use.
-/
structure DecodeFailure where
  encoding : Encoding
  start : Nat
  stop : Nat
  reason : DecodeReason
  firstByte : UInt8
  deriving DecidableEq, Repr

end LocalizationAudit
