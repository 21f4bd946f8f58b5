/-!
Canonical Huffman codes, given by the length of the code word of each symbol.
-/

namespace BuildWatch.Zlib

def longestWord : Nat := 15

/-- A canonical code: how many words of each length there are, from length one
on, and the symbols in the order of their words. -/
structure Code where
  counts : List Nat
  symbols : Array Nat
deriving Repr

namespace Code

def countsOf (lengths : List Nat) : List Nat :=
  (List.range longestWord).map fun index => lengths.count (index + 1)

def symbolsOf (lengths : List Nat) : List Nat :=
  let indexed := lengths.zipIdx
  (List.range longestWord).flatMap fun index =>
    (indexed.filter (fun entry => entry.1 == index + 1)).map Prod.snd

/-- The part of the words of full length that are taken, of `2 ^ 15`. -/
def taken (counts : List Nat) : Nat :=
  counts.foldl (fun total count => 2 * total + count) 0

/-- A code is usable if its words are complete, or if at most one symbol has a
word and the code may be `sparse`. -/
def ofLengths? (lengths : List Nat) (sparse : Bool) : Option Code :=
  let counts := countsOf lengths
  let used := counts.foldl (· + ·) 0
  if taken counts = Nat.pow 2 longestWord || (sparse && used ≤ 1) then
    some { counts := counts, symbols := (symbolsOf lengths).toArray }
  else none

end Code

end BuildWatch.Zlib
