import Worksheet.Text.Hex

namespace Worksheet.Encoding

inductive Reason where
  | invalidStart
  | invalidContinuation
  | unexpectedEnd
  | outsideRange
  | truncated
  | illegalEncoding
  | illegalSurrogate
  deriving DecidableEq, Repr

def Reason.text : Reason → String
  | invalidStart => "invalid start byte"
  | invalidContinuation => "invalid continuation byte"
  | unexpectedEnd => "unexpected end of data"
  | outsideRange => "ordinal not in range(128)"
  | truncated => "truncated data"
  | illegalEncoding => "illegal encoding"
  | illegalSurrogate => "illegal UTF-16 surrogate"

structure Fault where
  codec : String
  first : UInt8
  start : Nat
  stop : Nat
  reason : Reason
  deriving DecidableEq, Repr

def Fault.message (f : Fault) : String :=
  let codec := f.codec
  let start := f.start
  let reason := f.reason.text
  if f.stop = start + 1 then
    let byte := String.ofList (Chars.hex 2 f.first.toNat)
    s!"'{codec}' codec can't decode byte 0x{byte} in position {start}: {reason}"
  else
    let last := f.stop - 1
    s!"'{codec}' codec can't decode bytes in position {start}-{last}: {reason}"

end Worksheet.Encoding
