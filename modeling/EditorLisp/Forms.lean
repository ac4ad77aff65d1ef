import EditorLisp.Forms.Control
import EditorLisp.Forms.Definition
import EditorLisp.Forms.Loop
import EditorLisp.Forms.Mode
import EditorLisp.Forms.Pattern
import EditorLisp.Forms.Place
import EditorLisp.Forms.Quote
import EditorLisp.Primitives.Arithmetic

/-!
# The special forms

All special forms by name.  Several names stand for one form.
-/

namespace EditorLisp

open Forms in
def specialForms : List (String × SpecialForm) :=
  [("quote", quote), ("function", function), ("`", backquote), (vectorMark, vectorLiteral),
   ("setq", setq), ("setq-local", setqLocal), ("setq-default", setqDefault), ("if", ifForm),
   ("when", guarded "when" true), ("unless", guarded "unless" false), ("cond", cond),
   ("and", andForm), ("or", orForm), ("while", whileForm), ("progn", progn),
   ("save-restriction", progn), ("eval-when-compile", progn), ("eval-and-compile", progn),
   ("with-no-warnings", progn), ("with-silent-modifications", progn),
   ("combine-after-change-calls", progn), ("prog1", prog1), ("prog2", prog2),
   ("lambda", lambda), ("let", letForm), ("let*", letStar), ("catch", catchForm),
   ("unwind-protect", unwindProtect), ("condition-case", conditionCase),
   ("ignore-errors", ignoreErrors), ("dotimes", dotimes), ("dolist", dolist),
   ("defun", defun false), ("defsubst", defun false), ("cl-defun", defun false),
   ("defmacro", defun true), ("cl-defmacro", defun true), ("defvar", defvar false),
   ("defcustom", defvar false), ("defconst", defvar true), ("defvar-local", defvarLocal),
   ("defalias", defalias), ("defface", defface), ("defgroup", skipped),
   ("declare-function", skipped), ("declare", skipped), ("interactive", skipped),
   ("cl-case", clCase), ("case", clCase), ("cl-assert", clAssert),
   ("save-excursion", saveExcursion), ("save-mark-and-excursion", saveExcursion),
   ("save-current-buffer", saveCurrentBuffer), ("with-current-buffer", withCurrentBuffer),
   ("with-temp-buffer", withTempBuffer), ("save-match-data", saveMatchData),
   ("save-window-excursion", saveWindowExcursion),
   ("save-selected-window", saveSelectedWindow), ("pcase", pcase), ("cl-loop", clLoop),
   ("setf", setf), ("push", push), ("pop", pop), ("incf", step "incf" Primitives.sum),
   ("cl-incf", step "incf" Primitives.sum), ("decf", step "decf" Primitives.difference),
   ("cl-decf", step "decf" Primitives.difference), ("cl-rotatef", rotatef),
   ("define-derived-mode", defineDerivedMode), ("define-minor-mode", defineMinorMode),
   ("defvar-keymap", defvarKeymap), ("easy-menu-define", easyMenuDefine)]

def specialForm? (name : String) : Option SpecialForm := specialForms.lookup name

end EditorLisp
