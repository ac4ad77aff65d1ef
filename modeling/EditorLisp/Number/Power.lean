/-!
# Powers of two and of ten

The two scales that numbers are converted between: machine words and doubles are laid out
in powers of two, written numbers in powers of ten.
-/

namespace EditorLisp.Number

def twoTo (n : Nat) : Nat := Nat.pow 2 n

def tenTo (n : Nat) : Nat := Nat.pow 10 n

end EditorLisp.Number
