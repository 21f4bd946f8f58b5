/-!
Coloured text on a terminal.
-/

namespace BuildWatch.CommandLine

structure Style where
  start : Nat
  finish : Nat
deriving Repr, DecidableEq

namespace Style

def bold : Style := ⟨1, 0⟩
def dim : Style := ⟨2, 0⟩
def green : Style := ⟨32, 39⟩
def yellow : Style := ⟨33, 39⟩
def cyan : Style := ⟨36, 39⟩

def sequence (code : Nat) : String :=
  "\x1b[" ++ toString code ++ "m"

def apply (style : Style) (text : String) : String :=
  sequence style.start ++ text ++ sequence style.finish

end Style

end BuildWatch.CommandLine
