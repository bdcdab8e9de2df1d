/-!
Names in segments, which are set apart by dots. A name with one dot is that of an organization and
one of its deployments.
-/

namespace Tenancy

def splitDots : List Char → List (List Char)
  | [] => [[]]
  | c :: cs =>
    if c = '.' then [] :: splitDots cs
    else
      match splitDots cs with
      | [] => [[c]]
      | s :: ss => (c :: s) :: ss

def segments (name : String) : List String := (splitDots name.toList).map String.ofList

/-- The organization and the deployment of a name with two segments; of any other, nothing. -/
def splitDeploymentName (name : String) : String × String :=
  match segments name with
  | [organization, deployment] => (organization, deployment)
  | _ => ("", "")

end Tenancy
