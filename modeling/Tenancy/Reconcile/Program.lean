/-!
Programs that ask questions. A program is done, or it asks and goes on with the answer; who runs it
decides where the answers come from, and whatever else happens between two questions.
-/

namespace Tenancy

inductive Program (Q : Type) (Answer : Q → Type) (α : Type) : Type where
  | done (a : α)
  | ask (q : Q) (next : Answer q → Program Q Answer α)

namespace Program

variable {Q P : Type} {Answer : Q → Type} {Reply : P → Type} {α β : Type}

def bind : Program Q Answer α → (α → Program Q Answer β) → Program Q Answer β
  | done a, f => f a
  | ask q next, f => ask q fun r => (next r).bind f

instance : Monad (Program Q Answer) where
  pure := done
  bind := bind

def question (q : Q) : Program Q Answer (Answer q) := ask q done

/-- A program that asks the same questions of someone who answers others as well. -/
def embed (f : P → Q) (answer : ∀ p, Answer (f p) → Reply p) :
    Program P Reply α → Program Q Answer α
  | done a => done a
  | ask p next => ask (f p) fun r => embed f answer (next (answer p r))

end Program
end Tenancy
