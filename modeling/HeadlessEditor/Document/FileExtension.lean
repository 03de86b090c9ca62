import HeadlessEditor.Document.Buffer

/-!
The extension of the file that a document id names.
-/

namespace HeadlessEditor.DocumentId

/-- The steps of a path, the empty ones and those that stay where they are left out. -/
def pathSteps (path : String) : List String :=
  (path.splitOn "/").filter fun step => step ≠ "" ∧ step ≠ "."

/-- What follows the last point in a file name; nothing if there is none, or only one in front. -/
def extensionOfName (name : Text) : Text :=
  match name.reverse.span (· ≠ '.') with
  | (_, []) | (_, [_]) => []
  | (extension, _) => extension.reverse

/-- The extension of the file that a path names, without its point; empty if there is none. -/
def fileExtension (path : String) : String :=
  match (pathSteps path).getLast? with
  | none => ""
  | some name => if name = ".." then "" else String.ofList (extensionOfName name.toList)

end HeadlessEditor.DocumentId
