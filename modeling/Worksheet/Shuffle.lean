namespace Worksheet.Shuffle

abbrev Source := Nat → Nat → Nat → Nat

inductive Drawing (α : Type) where
  | done (result : α)
  | ask (first last : Nat) (next : Nat → Drawing α)

def Drawing.run (source : Source) : Drawing α → List (Nat × Nat) × α
  | done result => ([], result)
  | ask first last next =>
      let (asked, result) := (next (source 0 first last)).run (fun call => source (call + 1))
      ((first, last) :: asked, result)

def swap (l : List α) (i j : Nat) : List α :=
  match l[i]?, l[j]? with
  | some a, some b => (l.set i b).set j a
  | _, _ => l

def settle : Nat → List α → Drawing (List α)
  | 0, l => .done l
  | last + 1, l => .ask 0 (last + 1) (fun place => settle last (swap l (last + 1) place))

def drawing (l : List α) : Drawing (List α) := settle (l.length - 1) l

def shuffle (source : Source) (l : List α) : List α := ((drawing l).run source).2

def asked (source : Source) (l : List α) : List (Nat × Nat) := ((drawing l).run source).1

def ranges (l : List α) : List (Nat × Nat) := asked (fun _ first _ => first) l

def scripted (draws : List Int) : Source := fun call first last =>
  first + (((draws[call % draws.length]?).getD 0) % ((last : Int) - first + 1)).toNat

end Worksheet.Shuffle
