import Worksheet.Encoding.Basic

namespace Worksheet.Encoding.Utf16

inductive ByteOrder where
  | littleEndian
  | bigEndian
  deriving DecidableEq, Repr

def ByteOrder.codec : ByteOrder → String
  | littleEndian => "utf-16-le"
  | bigEndian => "utf-16-be"

def ByteOrder.unit : ByteOrder → UInt8 → UInt8 → Nat
  | littleEndian, a, b => a.toNat + 256 * b.toNat
  | bigEndian, a, b => 256 * a.toNat + b.toNat

def isHigh (unit : Nat) : Bool := 0xD800 ≤ unit && unit ≤ 0xDBFF

def isLow (unit : Nat) : Bool := 0xDC00 ≤ unit && unit ≤ 0xDFFF

def join (high low : Nat) : Char := Char.ofNat (0x10000 + 0x400 * (high - 0xD800) + (low - 0xDC00))

structure Pending where
  first : UInt8
  unit : Nat
  deriving DecidableEq, Repr

def decodeFrom (order : ByteOrder) (done : List Char) (pending : Option Pending) (offset : Nat) :
    List UInt8 → Except Fault (List Char)
  | [] =>
      match pending with
      | none => .ok done.reverse
      | some p => .error ⟨order.codec, p.first, offset - 2, offset, .unexpectedEnd⟩
  | [b] =>
      match pending with
      | none => .error ⟨order.codec, b, offset, offset + 1, .truncated⟩
      | some p => .error ⟨order.codec, p.first, offset - 2, offset + 1, .unexpectedEnd⟩
  | a :: b :: bytes =>
      let unit := order.unit a b
      match pending with
      | some p =>
          if isLow unit then decodeFrom order (join p.unit unit :: done) none (offset + 2) bytes
          else .error ⟨order.codec, p.first, offset - 2, offset, .illegalSurrogate⟩
      | none =>
          if isHigh unit then decodeFrom order done (some ⟨a, unit⟩) (offset + 2) bytes
          else if isLow unit then .error ⟨order.codec, a, offset, offset + 2, .illegalEncoding⟩
          else decodeFrom order (Char.ofNat unit :: done) none (offset + 2) bytes

def orderOf? : List UInt8 → Option ByteOrder
  | 0xFF :: 0xFE :: _ => some .littleEndian
  | 0xFE :: 0xFF :: _ => some .bigEndian
  | _ => none

end Worksheet.Encoding.Utf16
