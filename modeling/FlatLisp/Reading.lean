import FlatLisp.Error

/-!
# Reading on the way

A program reads files and the standard input, each only when its turn comes. A `Reading` says
what to read next and goes on with what is there; what it reads may depend on what it read
before. `Reading.perform` carries it out. For given texts, `Reading.result` is what comes of it,
and `Reading.sources` is what it reads.
-/

namespace FlatLisp

/-- Where a text is read from. -/
inductive Source where
  | file (name : String)
  | input
deriving DecidableEq

/-- A text, or why it cannot be read. -/
abbrev Contents := Except ReadError String

inductive Reading (α : Type) where
  | done (a : α)
  | read (source : Source) (next : Contents → Reading α)

namespace Reading

variable {α β : Type}

/-- Goes on with the result. -/
def bind : Reading α → (α → Reading β) → Reading β
  | .done a, next => next a
  | .read source go, next => .read source fun contents => (go contents).bind next

/-- Carries out what is read, in order. -/
def perform {m : Type → Type} [Monad m] (readSource : Source → m Contents) : Reading α → m α
  | .done a => pure a
  | .read source go => do
    let contents ← readSource source
    (go contents).perform readSource

/-- The result for given texts. -/
def result (texts : Source → Contents) : Reading α → α
  | .done a => a
  | .read source go => (go (texts source)).result texts

/-- What is read for given texts, in order. -/
def sources (texts : Source → Contents) : Reading α → List Source
  | .done _ => []
  | .read source go => source :: (go (texts source)).sources texts

end Reading

end FlatLisp
