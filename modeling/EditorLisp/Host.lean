import EditorLisp.Regexp.Automaton

/-!
# Hosts

What a session has from outside: an engine that finds patterns in texts, and a source of random
numbers.  A session may be given any; there is one of each to run programs with.
-/

namespace EditorLisp

/-- A source of random numbers, by how many have been drawn before. -/
structure Random where
  /-- Any machine word. -/
  word : Nat → Int64
  /-- A number up to a greatest one. -/
  upTo : Nat → (greatest : Nat) → Fin (greatest + 1)

/-- Words that look nothing like their numbers. -/
def Random.mix (n : Nat) : UInt64 :=
  let z := (UInt64.ofNat n + 1) * 0x9E3779B97F4A7C15
  let z := (z ^^^ (z >>> 30)) * 0xBF58476D1CE4E5B9
  let z := (z ^^^ (z >>> 27)) * 0x94D049BB133111EB
  z ^^^ (z >>> 31)

def Random.mixed : Random where
  word n := (mix n).toInt64
  upTo n greatest := Fin.ofNat (greatest + 1) (mix n).toNat

/-- What a session has from outside. -/
structure Host where
  engine : Regexp.Engine := Regexp.automaton
  random : Random := .mixed

instance : Inhabited Host := ⟨{}⟩

end EditorLisp
