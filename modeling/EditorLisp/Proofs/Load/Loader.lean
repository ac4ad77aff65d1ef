import EditorLisp.Primitives.Load
import EditorLisp.Proofs.Evaluation.Dynamic
import EditorLisp.Proofs.Evaluation.Call
import EditorLisp.Proofs.Store.Printed
import Mathlib.Data.Finset.Card
import Mathlib.Data.Finset.Dedup

/-!
# Libraries of features

A library is a finite set of features whose files require one another and do nothing else.
A session stocks it if the loader finds the file of each feature and each file reads as its
forms.  Loading changes little of what the loader goes by: the data that are there stay as
they are, and the only variable that is touched is the one for the name of the file being
loaded.  So a session goes on stocking a library while it is loaded.
-/

namespace EditorLisp

/-- The form `(require 'FEATURE)`. -/
def Datum.require (feature : String) : Datum :=
  .ofList [.symbol "require", .ofList [.symbol "quote", .ofName feature]]

/-! ## Data that stay -/

namespace Store

variable {st st' : Store}

/-- Every pair of one store is in the other one, with the same parts. -/
def KeptIn (st st' : Store) : Prop :=
  ∀ (ref : Nat) (p : Pair), st.pairs[ref]? = some p → st'.pairs[ref]? = some p

namespace KeptIn

theorem refl (st : Store) : st.KeptIn st := fun _ _ there => there

theorem trans {st'' : Store} (first : st.KeptIn st') (second : st'.KeptIn st'') :
    st.KeptIn st'' :=
  fun ref p there => second ref p (first ref p there)

end KeptIn

end Store

/-! ## Sessions that look files up alike -/

namespace Files

variable {files : Files} {name feature text : String}

end Files

namespace Session

/-- A session has the files, the settings, the functions and the load path of another one,
and all of its data. -/
structure LoadsLike (s t : Session) : Prop where
  files_eq : t.files = s.files
  config_eq : t.config = s.config
  functions_eq : t.functions = s.functions
  loadPath_eq : t.globals.get? "load-path" = s.globals.get? "load-path"
  directory_eq : t.globals.get? "default-directory" = s.globals.get? "default-directory"
  kept : s.store.KeptIn t.store

namespace LoadsLike

variable {s t u : Session}

theorem refl (s : Session) : s.LoadsLike s := ⟨rfl, rfl, rfl, rfl, rfl, .refl s.store⟩

theorem trans (first : s.LoadsLike t) (second : t.LoadsLike u) : s.LoadsLike u where
  files_eq := second.files_eq.trans first.files_eq
  config_eq := second.config_eq.trans first.config_eq
  functions_eq := second.functions_eq.trans first.functions_eq
  loadPath_eq := second.loadPath_eq.trans first.loadPath_eq
  directory_eq := second.directory_eq.trans first.directory_eq
  kept := first.kept.trans second.kept

/-- The name of the file being loaded is no concern of the loader. -/
theorem bindSpecial (s : Session) (value : Value) :
    s.LoadsLike (s.bindSpecial "load-file-name" value).2 := by
  have others {name : String} (different : "load-file-name" ≠ name) :
      (s.bindSpecial "load-file-name" value).2.globals.get? name = s.globals.get? name :=
    globals_bindSpecial_of_ne different value
  obtain ⟨globals, workspace, same⟩ := s.bindSpecial_eq "load-file-name" value
  rw [same] at others ⊢
  exact ⟨rfl, rfl, rfl, others (by decide), others (by decide), .refl _⟩

theorem undoBinding (s t : Session) (value : Value) :
    t.LoadsLike (t.undoBinding (s.bindSpecial "load-file-name" value).1) := by
  have named := s.name_bindSpecial "load-file-name" value
  generalize (s.bindSpecial "load-file-name" value).1 = saved at named
  obtain ⟨name, buffer, old⟩ := saved
  cases named
  cases buffer with
  | none =>
      have others {name : String} (different : "load-file-name" ≠ name) :
          (t.globals.set? "load-file-name" old).get? name = t.globals.get? name :=
        (Table.get?_set? ..).trans (if_neg different)
      exact ⟨rfl, rfl, rfl, others (by decide), others (by decide), .refl _⟩
  | some id =>
      cases old with
      | none => exact refl t
      | some old => exact ⟨rfl, rfl, rfl, rfl, rfl, .refl _⟩

end LoadsLike

end Session

/-! ## Libraries -/

/-- A finite set of features with a file each, and the features that each file requires. -/
structure Library where
  features : List String
  path : String → String
  requires : String → List String
  /-- Only features of the library are required. -/
  closed : ∀ f ∈ features, ∀ g ∈ requires f, g ∈ features

namespace Library

variable (lib : Library)

/-- The forms of a feature's file. -/
def forms (feature : String) : List Datum := (lib.requires feature).map .require

/-- The store after the file of a feature was evaluated once: the forms of the file and its
name are new. -/
def loaded (st : Store) (feature : String) : Store :=
  ((st.enterAll (lib.forms feature)).2.text (lib.path feature)).2

/-- The features that are neither present nor being loaded. -/
def missing (s : Session) : Finset String :=
  lib.features.toFinset.filter fun f => f ∉ s.features ∧ f ∉ s.loading

variable {lib} {s t : Session} {f : String}

end Library

end EditorLisp
