import Worksheet.Encoding.Utf16
import Worksheet.Encoding.Utf8
import Worksheet.Json.Reading

namespace Worksheet.Json

open Encoding

-- As for text in general, but the form that a half of a pair would have is taken for the half.
def lead? (b : UInt8) : Option Utf8.Pending :=
  (Encoding.Utf8.lead? b 0).map (fun p => if b = 0xED then { p with high := 0xBF } else p)

def utf8Points (done : List Nat) (pending : Option Utf8.Pending) :
    List UInt8 → Option (List Nat)
  | [] => if pending.isNone then some done.reverse else none
  | b :: bytes =>
      match pending with
      | none =>
          if b < 0x80 then utf8Points (b.toNat :: done) none bytes
          else match lead? b with
            | none => none
            | some p => utf8Points done (some p) bytes
      | some p =>
          if !p.admits b then none
          else if p.missing = 1 then utf8Points (p.bitsWith b :: done) none bytes
          else
            utf8Points done (some ⟨p.first, p.start, p.bitsWith b, p.missing - 1, 0x80, 0xBF⟩) bytes

def units? (order : Utf16.ByteOrder) : List UInt8 → Option (List Nat)
  | [] => some []
  | [_] => none
  | a :: b :: bytes => (units? order bytes).map (order.unit a b :: ·)

def joinPairs : List Nat → List Nat
  | high :: low :: units =>
      if isHigh high && isLow low then joined high low :: joinPairs units
      else high :: joinPairs (low :: units)
  | units => units

def utf16Points (order : Utf16.ByteOrder) (bytes : List UInt8) : Option (List Nat) :=
  (units? order bytes).map joinPairs

def utf32Points (order : Utf16.ByteOrder) : List UInt8 → Option (List Nat)
  | [] => some []
  | a :: b :: c :: d :: bytes =>
      let point := match order with
        | .littleEndian => order.unit a b + 65536 * order.unit c d
        | .bigEndian => 65536 * order.unit a b + order.unit c d
      if point < 0x110000 then (utf32Points order bytes).map (point :: ·) else none
  | _ => none

def points? (bytes : List UInt8) : Option (List Nat) :=
  match bytes with
  | 0x00 :: 0x00 :: 0xFE :: 0xFF :: rest => utf32Points .bigEndian rest
  | 0xFF :: 0xFE :: 0x00 :: 0x00 :: rest => utf32Points .littleEndian rest
  | 0xFE :: 0xFF :: rest => utf16Points .bigEndian rest
  | 0xFF :: 0xFE :: rest => utf16Points .littleEndian rest
  | 0xEF :: 0xBB :: 0xBF :: rest => utf8Points [] none rest
  | 0x00 :: 0x00 :: _ :: _ :: _ => utf32Points .bigEndian bytes
  | 0x00 :: _ :: _ :: _ :: _ => utf16Points .bigEndian bytes
  | _ :: 0x00 :: 0x00 :: 0x00 :: _ => utf32Points .littleEndian bytes
  | _ :: 0x00 :: _ :: _ :: _ => utf16Points .littleEndian bytes
  | [0x00, _] => utf16Points .bigEndian bytes
  | [_, 0x00] => utf16Points .littleEndian bytes
  | _ => utf8Points [] none bytes

def readOctets (bytes : List UInt8) : Except Fault Value :=
  match points? bytes with
  | none => .error .undecodable
  | some points => readPoints points

end Worksheet.Json
