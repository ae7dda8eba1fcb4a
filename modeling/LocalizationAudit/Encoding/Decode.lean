import LocalizationAudit.Encoding.Codec

/-! Choosing the first of several encodings that accepts some bytes. -/

namespace LocalizationAudit

inductive DecodeError where
  | noEncodings
  | rejected (failure : DecodeFailure)
  deriving DecidableEq, Repr

def resourceEncodings : List Encoding :=
  [.utf8, .utf16, .utf16be, .utf16le]

def sourceEncodings : List Encoding :=
  [.utf8]

def decodeAfter (lastError : DecodeError) (bytes : Bytes) :
    List Encoding → Except DecodeError (List Char × Encoding)
  | [] => .error lastError
  | encoding :: others =>
      match encoding.decode bytes with
      | .ok text => .ok (text, encoding)
      | .error failure => decodeAfter (.rejected failure) bytes others

def decodeText (bytes : Bytes) (encodings : List Encoding) :
    Except DecodeError (List Char × Encoding) :=
  decodeAfter .noEncodings bytes encodings

def DecodeError.reason : DecodeError → String
  | .noEncodings => "No encodings given"
  | .rejected failure => failure.reason.text

def DecodeFailure.message (failure : DecodeFailure) : String :=
  let place :=
    if failure.stop == failure.start + 1 then
      let digits := Nat.toDigits 16 failure.firstByte.toNat
      let padded := if digits.length < 2 then '0' :: digits else digits
      "byte 0x" ++ String.ofList padded ++ " in position " ++ toString failure.start
    else
      "bytes in position " ++ toString failure.start ++ "-" ++ toString (failure.stop - 1)
  "'" ++ failure.encoding.name ++ "' codec can't decode " ++ place ++ ": " ++ failure.reason.text

def DecodeError.message : DecodeError → String
  | .noEncodings => "No encodings given"
  | .rejected failure => failure.message

end LocalizationAudit
