import Tenancy.Text.Lowercase

/-!
Subjects on the event bus: a root, the kind of object in lower case, and the operation.
-/

namespace Tenancy.Subject

def event (root kind operation : String) : String :=
  s!"{root}." ++ Text.lowercase kind ++ s!".{operation}"

def ofKind (root kind : String) : String := s!"{root}." ++ Text.lowercase kind ++ ".>"

end Tenancy.Subject
