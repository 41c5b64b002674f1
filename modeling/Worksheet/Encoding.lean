import Worksheet.Encoding.Utf16
import Worksheet.Encoding.Utf8

namespace Worksheet

inductive Encoding where
  | utf8
  | utf8Marked
  | latin1
  | ascii
  | utf16
  | utf16In (order : Encoding.Utf16.ByteOrder)
  deriving DecidableEq, Repr

namespace Encoding

inductive Failure where
  | undecodable (fault : Fault)
  | noByteOrder
  deriving DecidableEq, Repr

def Failure.message : Failure → String
  | undecodable fault => fault.message
  | noByteOrder => "UTF-16 stream does not start with BOM"

def decodeAscii (bytes : List UInt8) : Except Fault (List Char) :=
  match bytes.zipIdx.find? (fun e => 0x80 ≤ e.1.toNat) with
  | some (b, offset) => .error ⟨"ascii", b, offset, offset + 1, .outsideRange⟩
  | none => .ok (bytes.map (fun b => Char.ofNat b.toNat))

def decodeUtf16 (bytes : List UInt8) : Except Failure (List Char) :=
  match Utf16.orderOf? bytes with
  | some order => (Utf16.decodeFrom order [] none 2 (bytes.drop 2)).mapError .undecodable
  | none => do
      let cs ← (Utf16.decodeFrom .littleEndian [] none 0 bytes).mapError .undecodable
      if bytes.isEmpty then .ok cs else .error .noByteOrder

def decode (e : Encoding) (bytes : List UInt8) : Except Failure (List Char) :=
  match e with
  | utf8 => (Utf8.decode bytes).mapError .undecodable
  | utf8Marked => (Utf8.decodeMarked bytes).mapError .undecodable
  | latin1 => .ok (bytes.map (fun b => Char.ofNat b.toNat))
  | ascii => (decodeAscii bytes).mapError .undecodable
  | utf16 => decodeUtf16 bytes
  | utf16In order => (Utf16.decodeFrom order [] none 0 bytes).mapError .undecodable

def names : List (Encoding × List String) :=
  [(utf8, ["utf_8", "u8", "utf", "utf8", "utf8_ucs2", "utf8_ucs4", "cp65001"]),
    (utf8Marked, ["utf_8_sig"]),
    (latin1, ["latin_1", "8859", "cp819", "csisolatin1", "ibm819", "iso8859", "iso8859_1",
      "iso_8859_1", "iso_8859_1_1987", "iso_ir_100", "l1", "latin", "latin1"]),
    (ascii, ["ascii", "646", "ansi_x3.4_1968", "ansi_x3_4_1968", "ansi_x3.4_1986", "cp367",
      "csascii", "ibm367", "iso646_us", "iso_646.irv_1991", "iso_ir_6", "us", "us_ascii"]),
    (utf16, ["utf_16", "u16", "utf16"]),
    (utf16In .littleEndian, ["utf_16_le", "unicodelittleunmarked", "utf_16le"]),
    (utf16In .bigEndian, ["utf_16_be", "unicodebigunmarked", "utf_16be"])]

def otherCodecs : List String :=
  ["base64", "base64_codec", "base_64", "bz2", "bz2_codec", "hex", "hex_codec", "quopri",
    "quopri_codec", "quoted_printable", "quotedprintable", "rot13", "rot_13", "uu", "uu_codec", "zip",
    "zlib", "zlib_codec"]

def isNameChar (c : Char) : Bool := c.isAlphanum || c == '.'

def normalName (name : String) : String :=
  let parts := name.toList.splitBy (fun a b => isNameChar a == isNameChar b)
  "_".intercalate ((parts.filter (fun part => part.any isNameChar)).map
    (fun part => String.ofList (part.map Char.toLower)))

def ofName? (name : String) : Option Encoding :=
  if name = "locale" then some utf8
  else (names.find? (fun e => normalName name ∈ e.2)).map (·.1)

def isOtherCodec (name : String) : Bool := normalName name ∈ otherCodecs

end Encoding

end Worksheet
