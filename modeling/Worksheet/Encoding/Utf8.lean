import Worksheet.Encoding.Basic

namespace Worksheet.Encoding.Utf8

structure Pending where
  first : UInt8
  start : Nat
  bits : Nat
  missing : Nat
  low : Nat
  high : Nat
  deriving DecidableEq, Repr

def lead? (b : UInt8) (offset : Nat) : Option Pending :=
  let n := b.toNat
  if n < 0xC2 then none
  else if n < 0xE0 then some ⟨b, offset, n - 0xC0, 1, 0x80, 0xBF⟩
  else if n < 0xF0 then
    some ⟨b, offset, n - 0xE0, 2, if n = 0xE0 then 0xA0 else 0x80, if n = 0xED then 0x9F else 0xBF⟩
  else if n < 0xF5 then
    some ⟨b, offset, n - 0xF0, 3, if n = 0xF0 then 0x90 else 0x80, if n = 0xF4 then 0x8F else 0xBF⟩
  else none

def Pending.admits (p : Pending) (b : UInt8) : Bool := p.low ≤ b.toNat && b.toNat ≤ p.high

def Pending.bitsWith (p : Pending) (b : UInt8) : Nat := 64 * p.bits + b.toNat % 64

def Pending.fault (p : Pending) (stop : Nat) (reason : Reason) : Fault :=
  ⟨"utf-8", p.first, p.start, stop, reason⟩

def decodeFrom (done : List Char) (pending : Option Pending) (offset : Nat) :
    List UInt8 → Except Fault (List Char)
  | [] =>
      match pending with
      | none => .ok done.reverse
      | some p => .error (p.fault offset .unexpectedEnd)
  | b :: bytes =>
      match pending with
      | none =>
          if b.toNat < 0x80 then
            decodeFrom (Char.ofNat b.toNat :: done) none (offset + 1) bytes
          else match lead? b offset with
            | none => .error ⟨"utf-8", b, offset, offset + 1, .invalidStart⟩
            | some p => decodeFrom done (some p) (offset + 1) bytes
      | some p =>
          if !p.admits b then .error (p.fault offset .invalidContinuation)
          else if p.missing = 1 then
            decodeFrom (Char.ofNat (p.bitsWith b) :: done) none (offset + 1) bytes
          else
            decodeFrom done (some ⟨p.first, p.start, p.bitsWith b, p.missing - 1, 0x80, 0xBF⟩)
              (offset + 1) bytes

def decode (bytes : List UInt8) : Except Fault (List Char) := decodeFrom [] none 0 bytes

def mark : List UInt8 := [0xEF, 0xBB, 0xBF]

def decodeMarked (bytes : List UInt8) : Except Fault (List Char) :=
  if mark.isPrefixOf bytes then decode (bytes.drop mark.length)
  else if bytes.isPrefixOf mark then .ok []
  else decode bytes

def decodeLossyFrom (done : List Char) (pending : Option Pending) : List UInt8 → List Char
  | [] => (match pending with | none => done | some _ => '\uFFFD' :: done).reverse
  | b :: bytes =>
      match pending with
      | some p =>
          if p.admits b then
            if p.missing = 1 then decodeLossyFrom (Char.ofNat (p.bitsWith b) :: done) none bytes
            else
              decodeLossyFrom done (some ⟨p.first, 0, p.bitsWith b, p.missing - 1, 0x80, 0xBF⟩) bytes
          else if b.toNat < 0x80 then
            decodeLossyFrom (Char.ofNat b.toNat :: '\uFFFD' :: done) none bytes
          else match lead? b 0 with
            | none => decodeLossyFrom ('\uFFFD' :: '\uFFFD' :: done) none bytes
            | some q => decodeLossyFrom ('\uFFFD' :: done) (some q) bytes
      | none =>
          if b.toNat < 0x80 then decodeLossyFrom (Char.ofNat b.toNat :: done) none bytes
          else match lead? b 0 with
            | none => decodeLossyFrom ('\uFFFD' :: done) none bytes
            | some q => decodeLossyFrom done (some q) bytes

end Worksheet.Encoding.Utf8
