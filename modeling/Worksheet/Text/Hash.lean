namespace Worksheet

namespace Chars

def units (c : Char) : List UInt32 :=
  if c.val < 0x10000 then [c.val]
  else [0xD800 + (c.val - 0x10000) / 0x400, 0xDC00 + (c.val - 0x10000) % 0x400]

end Chars

namespace Hash

structure Accumulators where
  left : UInt32
  right : UInt32
  deriving DecidableEq, Repr

-- Only the seed modulo 2^32 counts.
def start (seed : Int) : Accumulators :=
  let seed := UInt32.ofNat (seed % 4294967296).toNat
  ⟨0xDEADBEEF ^^^ seed, 0x41C6CE57 ^^^ seed⟩

def Accumulators.mix (a : Accumulators) (unit : UInt32) : Accumulators :=
  ⟨(a.left ^^^ unit) * 265443561, (a.right ^^^ unit) * 159334677⟩

def run (seed : Int) (units : List UInt32) : Accumulators :=
  units.foldl Accumulators.mix (start seed)

def fold (own other low : UInt32) : UInt32 :=
  let high : UInt32 := (own ^^^ (other >>> 16)) * 2246822507
  let cross : UInt32 := (low ^^^ (low >>> 13)) * 3266489909
  high ^^^ cross

def Accumulators.finish (a : Accumulators) : Accumulators :=
  let left := fold a.left a.right a.right
  ⟨left, fold a.right a.right left⟩

def Accumulators.number (a : Accumulators) : Nat :=
  4294967296 * (2009751 &&& a.right).toNat + a.left.toNat

def text (units : List UInt32) (seed : Int) : String := toString (run seed units).finish.number

end Hash

namespace Text

def units (s : String) : List UInt32 := s.toList.flatMap Chars.units

def hashText (value : String) (seed : Int) : String := Hash.text (units value) seed

end Text

end Worksheet
