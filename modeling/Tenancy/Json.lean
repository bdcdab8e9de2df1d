import Tenancy.Double

/-!
JSON values. Whole numbers of 64 bits are exact and every other number is a double; `unfit` stands
where a text is well formed but names no value: a string that is not Unicode text, a number beyond
the doubles, nesting past the limit. A sound value has no such part, and a canonical one lists the
members of its objects in increasing order of their names.
-/

namespace Tenancy

inductive Json where
  | null
  | bool (b : Bool)
  | int (n : Int)
  | double (x : Double)
  | str (s : String)
  | arr (items : List Json)
  | obj (members : List (String × Json))
  | unfit
deriving Repr, Inhabited

namespace Json

mutual

def beq : Json → Json → Bool
  | null, null => true
  | bool a, bool b => a == b
  | int m, int n => m == n
  | double x, double y => x == y
  | str s, str t => s == t
  | arr xs, arr ys => beqItems xs ys
  | obj xs, obj ys => beqMembers xs ys
  | unfit, unfit => true
  | _, _ => false

def beqItems : List Json → List Json → Bool
  | [], [] => true
  | x :: xs, y :: ys => beq x y && beqItems xs ys
  | _, _ => false

def beqMembers : List (String × Json) → List (String × Json) → Bool
  | [], [] => true
  | (k, x) :: xs, (l, y) :: ys => k == l && beq x y && beqMembers xs ys
  | _, _ => false

end

instance : BEq Json := ⟨beq⟩

mutual

def sound : Json → Bool
  | unfit => false
  | arr xs => soundItems xs
  | obj ms => soundMembers ms
  | _ => true

def soundItems : List Json → Bool
  | [] => true
  | x :: xs => sound x && soundItems xs

def soundMembers : List (String × Json) → Bool
  | [] => true
  | (_, x) :: ms => sound x && soundMembers ms

end

def insertMember (name : String) (value : Json) :
    List (String × Json) → List (String × Json)
  | [] => [(name, value)]
  | (k, v) :: ms =>
    match compare name k with
    | .lt => (name, value) :: (k, v) :: ms
    | .eq => (name, value) :: ms
    | .gt => (k, v) :: insertMember name value ms

mutual

/-- Members in increasing order of their names; of several with one name the last stays. -/
def canonical : Json → Json
  | arr xs => arr (canonicalItems xs)
  | obj ms => obj (canonicalMembers [] ms)
  | j => j

def canonicalItems : List Json → List Json
  | [] => []
  | x :: xs => canonical x :: canonicalItems xs

def canonicalMembers (done : List (String × Json)) :
    List (String × Json) → List (String × Json)
  | [] => done
  | (k, v) :: ms => canonicalMembers (insertMember k (canonical v) done) ms

end

def member? (j : Json) (name : String) : Option Json :=
  match j with
  | obj ms => (ms.reverse.find? (·.1 == name)).map (·.2)
  | _ => none

def ofNat (n : Nat) : Json := int n

def ofOption (f : α → Json) : Option α → Json
  | none => null
  | some a => f a

end Json
end Tenancy
