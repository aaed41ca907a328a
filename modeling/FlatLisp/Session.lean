import FlatLisp.Environment
import FlatLisp.Error
import FlatLisp.Value.Chain

/-!
# Sessions

What evaluation reads and changes: the environment, the text printed so far, and the stamp
of the next cell. A builtin sees none of it: it returns a `Yield`, from which the session
makes cells and printed text. So no builtin can change a binding.
-/

namespace FlatLisp

structure Session where
  env : Environment
  printed : String
  nextStamp : Nat

/-- What a builtin returns: fresh cells for `items` in front of `tail`, and text to print. -/
structure Yield where
  items : List Value
  tail : Value
  printed : String

namespace Yield

/-- An existing value. -/
def value (v : Value) : Yield := ⟨[], v, ""⟩

/-- A fresh proper list. -/
def list (items : List Value) : Yield := ⟨items, .nil, ""⟩

/-- A fresh cell. -/
def cell (head tail : Value) : Yield := ⟨[head], tail, ""⟩

/-- Text to print, and nil. -/
def print (text : String) : Yield := ⟨[], .nil, text⟩

end Yield

namespace Session

/-- A session over an environment in which nothing is printed and no cell is made yet. -/
def fresh (env : Environment) : Session := ⟨env, "", 0⟩

def define (s : Session) (name : String) (v : Value) : Session :=
  { s with env := s.env.define name v }

def print (s : Session) (text : String) : Session := { s with printed := s.printed ++ text }

/-- Makes a chain of fresh cells. -/
def chain (s : Session) (items : List Value) (tail : Value) : Value × Session :=
  (.ofList s.nextStamp items tail, { s with nextStamp := s.nextStamp + items.length })

/-- Carries out what a builtin returns. -/
def receive (s : Session) (y : Yield) : Value × Session :=
  (s.print y.printed).chain y.items y.tail

theorem receive_value (s : Session) (v : Value) : s.receive (.value v) = (v, s) := by
  simp [receive, Yield.value, print, chain, Value.ofList, Value.prepend]

theorem receive_list (s : Session) (vs : List Value) :
    s.receive (.list vs) =
      (.ofList s.nextStamp vs .nil, { s with nextStamp := s.nextStamp + vs.length }) := by
  simp [receive, Yield.list, print, chain]

end Session

end FlatLisp
