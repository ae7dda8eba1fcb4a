import LocalizationAudit.Encoding.Basic

/-!
Decoding as repeated reading of one character from the front of the bytes. Every encoding is a
reader; the loop and its error positions are shared. Encoding is the other direction. In UTF-8,
overlong forms, surrogates and values past the last code point show in the second byte.
-/

namespace LocalizationAudit

inductive ByteOrder where
  | little
  | big
  deriving DecidableEq, Repr

inductive Reading where
  | scalar (c : Char) (extra : Nat)
  | fault (reason : DecodeReason) (extra : Nat)
  deriving DecidableEq, Repr

def isContinuation (byte : UInt8) : Bool :=
  0x80 ≤ byte && byte < 0xC0

def secondByteFits (first second : UInt8) : Bool :=
  isContinuation second &&
    (first != 0xE0 || 0xA0 ≤ second) && (first != 0xED || second < 0xA0) &&
    (first != 0xF0 || 0x90 ≤ second) && (first != 0xF4 || second < 0x90)

def appendBits (value : Nat) (byte : UInt8) : Nat :=
  value * 64 + (byte.toNat - 0x80)

def readTwo (first : UInt8) : Bytes → Reading
  | [] => .fault .unexpectedEnd 0
  | second :: _ =>
      if isContinuation second then
        .scalar (Char.ofNat (appendBits (first.toNat - 0xC0) second)) 1
      else .fault .invalidContinuationByte 0

def readThree (first : UInt8) : Bytes → Reading
  | [] => .fault .unexpectedEnd 0
  | second :: rest =>
      if secondByteFits first second then
        match rest with
        | [] => .fault .unexpectedEnd 1
        | third :: _ =>
            if isContinuation third then
              .scalar (Char.ofNat (appendBits (appendBits (first.toNat - 0xE0) second) third)) 2
            else .fault .invalidContinuationByte 1
      else .fault .invalidContinuationByte 0

def readFour (first : UInt8) : Bytes → Reading
  | [] => .fault .unexpectedEnd 0
  | second :: rest =>
      if secondByteFits first second then
        match rest with
        | [] => .fault .unexpectedEnd 1
        | third :: rest =>
            if isContinuation third then
              match rest with
              | [] => .fault .unexpectedEnd 2
              | fourth :: _ =>
                  if isContinuation fourth then
                    .scalar (Char.ofNat (appendBits
                      (appendBits (appendBits (first.toNat - 0xF0) second) third) fourth)) 3
                  else .fault .invalidContinuationByte 2
            else .fault .invalidContinuationByte 1
      else .fault .invalidContinuationByte 0

def readUtf8 (first : UInt8) (rest : Bytes) : Reading :=
  if first < 0x80 then .scalar (Char.ofNat first.toNat) 0
  else if first < 0xC2 then .fault .invalidStartByte 0
  else if first < 0xE0 then readTwo first rest
  else if first < 0xF0 then readThree first rest
  else if first < 0xF5 then readFour first rest
  else .fault .invalidStartByte 0

def codeUnit (order : ByteOrder) (first second : UInt8) : Nat :=
  match order with
  | .little => first.toNat + 256 * second.toNat
  | .big => 256 * first.toNat + second.toNat

def isHighSurrogate (unit : Nat) : Bool :=
  0xD800 ≤ unit && unit < 0xDC00

def isLowSurrogate (unit : Nat) : Bool :=
  0xDC00 ≤ unit && unit < 0xE000

def readUtf16 (order : ByteOrder) (first : UInt8) : Bytes → Reading
  | [] => .fault .truncated 0
  | second :: rest =>
      let unit := codeUnit order first second
      if isHighSurrogate unit then
        match rest with
        | third :: fourth :: _ =>
            let low := codeUnit order third fourth
            if isLowSurrogate low then
              .scalar (Char.ofNat (0x10000 + (unit - 0xD800) * 0x400 + (low - 0xDC00))) 3
            else .fault .illegalSurrogate 1
        | short => .fault .unexpectedEnd (1 + short.length)
      else if isLowSurrogate unit then .fault .illegalEncoding 1
      else .scalar (Char.ofNat unit) 1

def readAscii (first : UInt8) (_ : Bytes) : Reading :=
  if first < 0x80 then .scalar (Char.ofNat first.toNat) 0 else .fault .outsideAscii 0

def readLatin1 (first : UInt8) (_ : Bytes) : Reading :=
  .scalar (Char.ofNat first.toNat) 0

def decodeWith (encoding : Encoding) (read : UInt8 → Bytes → Reading) (position : Nat)
    (bytes : Bytes) : Except DecodeFailure (List Char) :=
  match bytes with
  | [] => .ok []
  | first :: rest =>
      match read first rest with
      | .scalar c extra =>
          match decodeWith encoding read (position + 1 + extra) (rest.drop extra) with
          | .ok text => .ok (c :: text)
          | .error failure => .error failure
      | .fault reason extra =>
          .error ⟨encoding, position, position + 1 + extra, reason, first⟩
termination_by bytes.length
decreasing_by simp only [List.length_drop, List.length_cons]; omega

def decodeMarked : Bytes → Except DecodeFailure (List Char)
  | 0xFF :: 0xFE :: rest => decodeWith .utf16le (readUtf16 .little) 2 rest
  | 0xFE :: 0xFF :: rest => decodeWith .utf16be (readUtf16 .big) 2 rest
  | bytes => decodeWith .utf16le (readUtf16 .little) 0 bytes

def Encoding.decode (bytes : Bytes) : Encoding → Except DecodeFailure (List Char)
  | .utf8 => decodeWith .utf8 readUtf8 0 bytes
  | .utf16 => decodeMarked bytes
  | .utf16be => decodeWith .utf16be (readUtf16 .big) 0 bytes
  | .utf16le => decodeWith .utf16le (readUtf16 .little) 0 bytes
  | .ascii => decodeWith .ascii readAscii 0 bytes
  | .latin1 => decodeWith .latin1 readLatin1 0 bytes

def encodeUtf8 (text : List Char) : Bytes :=
  text.flatMap String.utf8EncodeChar

def unitBytes (order : ByteOrder) (unit : Nat) : Bytes :=
  match order with
  | .little => [UInt8.ofNat (unit % 256), UInt8.ofNat (unit / 256)]
  | .big => [UInt8.ofNat (unit / 256), UInt8.ofNat (unit % 256)]

def encodeUtf16Char (order : ByteOrder) (c : Char) : Bytes :=
  if c.toNat < 0x10000 then unitBytes order c.toNat
  else
    unitBytes order (0xD800 + (c.toNat - 0x10000) / 0x400) ++
      unitBytes order (0xDC00 + (c.toNat - 0x10000) % 0x400)

def encodeUtf16 (order : ByteOrder) (text : List Char) : Bytes :=
  text.flatMap (encodeUtf16Char order)

end LocalizationAudit
