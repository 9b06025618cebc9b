import EquationText.File.Access
import EquationText.Report

/-! # Documents in files -/

namespace EquationText

/-- Carries out the document in a file; the path names it in the places of faults. -/
def preprocessFile {m : Type → Type} [Monad m] (files : FileAccess m) (settings : Settings)
    (verbose : Bool) (path : String) : m (Except DocumentFault Preprocessed) := do
  let document ← files.readDocument path
  return document.map (preprocess settings verbose path)

end EquationText
