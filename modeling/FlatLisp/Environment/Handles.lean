import FlatLisp.Eval

/-!
# Environment handles

Several handles may share one environment: a write through one is seen through all of them.
`Handles` keeps the environments, and for every handle, numbered in the order of creation,
which of them it stands for.
-/

namespace FlatLisp

structure Handles where
  /-- For every handle the number of its environment. -/
  owner : Array Nat
  environments : Array Environment

namespace Handles

/-- No handles yet. -/
def empty : Handles := ⟨#[], #[]⟩

/-- The environment behind a handle; empty for a handle that was never made. -/
def get (hs : Handles) (h : Nat) : Environment :=
  ((hs.owner[h]?).bind (hs.environments[·]?)).getD .empty

/-- Adds a handle to an environment of its own. -/
def add (hs : Handles) (e : Environment) : Handles :=
  ⟨hs.owner.push hs.environments.size, hs.environments.push e⟩

/-- Adds a handle to the environment of an existing one. -/
def share (hs : Handles) (h : Nat) : Handles :=
  match hs.owner[h]? with
  | some c => { hs with owner := hs.owner.push c }
  | none => hs

/-- Replaces the environment behind a handle. -/
def set (hs : Handles) (h : Nat) (e : Environment) : Handles :=
  match hs.owner[h]? with
  | some c => { hs with environments := hs.environments.setIfInBounds c e }
  | none => hs

/-- Binds a name through a handle. -/
def define (hs : Handles) (h : Nat) (name : String) (v : Value) : Handles :=
  hs.set h ((hs.get h).define name v)

/-- Binds builtins through a handle. -/
def register (hs : Handles) (h : Nat) (bs : List Builtin) : Handles :=
  hs.set h ((hs.get h).withBuiltins bs)

/-- Writes the bindings behind another handle, one by one. A handle of the same environment has
nothing to add. -/
def merge (hs : Handles) (h source : Nat) : Handles :=
  if hs.owner[h]? = hs.owner[source]? then hs
  else (hs.get source).bindings.foldl (fun hs (name, v) => hs.define h name v) hs

/-- Evaluates a program text through a handle, with stamps from `stamp` on. -/
def eval (hs : Handles) (h : Nat) (fuel : Nat) (source : String) (stamp : Nat) :
    Outcome Value × Handles :=
  let o := evalSource fuel source { env := hs.get h, printed := "", nextStamp := stamp }
  (o, match o.session? with
    | some s => hs.set h s.env
    | none => hs)

end Handles

end FlatLisp
