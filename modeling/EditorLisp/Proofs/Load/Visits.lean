import Mathlib.Data.List.Perm.Basic
import Mathlib.Logic.Relation

/-!
# Visits in depth

Features that need one another are visited in depth: a feature is passed over if it is
present or in progress, and otherwise visited, which means to put it in progress, visit all
that it needs and make it present.  In whatever way the features need each other, each of
them is visited at most once; what is visited is needed from where the visits started, and
all that is needed by it is present in the end or was in progress before.
-/

namespace EditorLisp

variable {needs : String → List String}

/-- Visiting wanted features one after the other, some features being in progress and some
present, enters the features of the last list but one in that order and ends with those of
the last list present. -/
inductive Visits (needs : String → List String) :
    List String → List String → List String → List String → List String → Prop
  | nil {progress present : List String} : Visits needs progress present [] [] present
  /-- The first feature is passed over. -/
  | known {progress present rest entered present' : List String} {f : String}
      (isKnown : f ∈ present ∨ f ∈ progress)
      (others : Visits needs progress present rest entered present') :
      Visits needs progress present (f :: rest) entered present'
  /-- The first feature is visited. -/
  | enter {progress present rest inner between outer present' : List String} {f : String}
      (absent : f ∉ present) (idle : f ∉ progress)
      (below : Visits needs (progress ++ [f]) present (needs f) inner between)
      (others : Visits needs progress (between ++ [f]) rest outer present') :
      Visits needs progress present (f :: rest) (f :: (inner ++ outer)) present'

namespace Visits

variable {progress present wanted entered present' : List String} {f g : String}

/-- Visits one after the other. -/
theorem append {more inner outer between : List String}
    (first : Visits needs progress present wanted inner between)
    (second : Visits needs progress between more outer present') :
    Visits needs progress present (wanted ++ more) (inner ++ outer) present' := by
  induction first with
  | nil => exact second
  | known isKnown _ ih => exact .known isKnown (ih second)
  | @enter _ _ _ _ _ _ _ f absent idle below _ _ ihOthers =>
      have visits := Visits.enter absent idle below (ihOthers second)
      rwa [← List.append_assoc] at visits

/-- What is entered is needed, through any number of others, by a wanted feature. -/
theorem exists_path (visits : Visits needs progress present wanted entered present')
    (isEntered : f ∈ entered) :
    ∃ start ∈ wanted, Relation.ReflTransGen (fun f g => g ∈ needs f) start f := by
  induction visits with
  | nil => cases isEntered
  | known _ _ ih =>
      obtain ⟨start, member, path⟩ := ih isEntered
      exact ⟨start, List.mem_cons_of_mem _ member, path⟩
  | enter _ _ _ _ ihBelow ihOthers =>
      rcases List.mem_cons.mp isEntered with rfl | later
      · exact ⟨_, List.mem_cons_self, .refl⟩
      · rcases List.mem_append.mp later with inside | behind
        · obtain ⟨start, needed, path⟩ := ihBelow inside
          exact ⟨_, List.mem_cons_self, .head needed path⟩
        · obtain ⟨start, member, path⟩ := ihOthers behind
          exact ⟨start, List.mem_cons_of_mem _ member, path⟩

end Visits

end EditorLisp
