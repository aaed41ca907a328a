import FlatLisp.Builtin.Call

/-!
# Evaluation

Forms are evaluated in a session. There is one environment for all: a call writes its
parameters into it, and they stay bound. Evaluation may go on forever, so it takes an
amount of fuel, the depth of nesting and repetition that it may reach; `Outcome.exhausted`
says that the fuel was too little, and nothing about the program. A failure keeps what was
done before it.
-/

namespace FlatLisp

/-- How an evaluation ends. -/
inductive Outcome (α : Type) where
  | done (a : α) (s : Session)
  | failed (e : Error) (s : Session)
  | exhausted

namespace Outcome

/-- Goes on with the result, if there is one. -/
@[inline]
def andThen {α β : Type} (o : Outcome α) (next : α → Session → Outcome β) : Outcome β :=
  match o with
  | .done a s => next a s
  | .failed e s => .failed e s
  | .exhausted => .exhausted

/-- The outcome of a computation that can only fail at run time. -/
def ofExcept {α : Type} : Except RuntimeError α × Session → Outcome α
  | (.ok a, s) => .done a s
  | (.error e, s) => .failed (.run e) s

/-- The session that the outcome leaves behind. -/
def session? {α : Type} : Outcome α → Option Session
  | .done _ s => some s
  | .failed _ s => some s
  | .exhausted => none

end Outcome

namespace Session

/-- Binds the parameters of a procedure to arguments, in order. -/
def bind (s : Session) (params : List String) (arguments : List Value) : Session :=
  { s with env := s.env.defineAll (params.zip arguments) }

end Session

mutual

/-- Evaluates a form. -/
def eval (fuel : Nat) (f : Form) (s : Session) : Outcome Value :=
  match fuel with
  | 0 => .exhausted
  | fuel + 1 =>
    match f with
    | .literal v => .done v s
    | .symbol name =>
      match s.env.find? name with
      | some v => .done v s
      | none => .failed (.run (.unbound name)) s
    | .apply [] => .failed (.run .emptyApplication) s
    | .apply (head :: rest) =>
      (eval fuel head s).andThen fun callee s =>
        (evalEach fuel rest s).andThen fun arguments s =>
          match callee with
          | .builtin b => .ofExcept (b.call arguments s)
          | .procedure p => call fuel p arguments s
          | v => .failed (.run (.notCallable head v.kind)) s
    | .assign target value =>
      (eval fuel value s).andThen fun v s => .done v (s.define target v)
    | .branch test yes no =>
      (eval fuel test s).andThen fun v s => if v.truthy then eval fuel yes s else eval fuel no s
    | .whileLoop test body => loop fuel test body none .nil s
    | .forLoop start test step body =>
      (eval fuel start s).andThen fun _ s => loop fuel test body (some step) .nil s
    | .define name params body => .done .nil (s.define name (.procedure ⟨name, params, body⟩))

/-- Evaluates forms in order, to all their values. -/
def evalEach (fuel : Nat) (fs : List Form) (s : Session) : Outcome (List Value) :=
  match fuel with
  | 0 => .exhausted
  | fuel + 1 =>
    match fs with
    | [] => .done [] s
    | f :: fs =>
      (eval fuel f s).andThen fun v s =>
        (evalEach fuel fs s).andThen fun vs s => .done (v :: vs) s

/-- Evaluates forms in order, to the value of the last one, or to `last` if there is none. -/
def evalBody (fuel : Nat) (fs : List Form) (last : Value) (s : Session) : Outcome Value :=
  match fuel with
  | 0 => .exhausted
  | fuel + 1 =>
    match fs with
    | [] => .done last s
    | f :: fs => (eval fuel f s).andThen fun v s => evalBody fuel fs v s

/-- Evaluates the body, and after it the step, as long as the test holds. The value is that
of the last form of the body in the last round, or `last` if there is none. -/
def loop (fuel : Nat) (test : Form) (body : List Form) (step : Option Form) (last : Value)
    (s : Session) : Outcome Value :=
  match fuel with
  | 0 => .exhausted
  | fuel + 1 =>
    (eval fuel test s).andThen fun v s =>
      if v.truthy then
        (evalBody fuel body last s).andThen fun last s =>
          match step with
          | none => loop fuel test body none last s
          | some f => (eval fuel f s).andThen fun _ s => loop fuel test body (some f) last s
      else .done last s

/-- Calls a procedure. -/
def call (fuel : Nat) (p : Procedure Form) (arguments : List Value) (s : Session) : Outcome Value :=
  match fuel with
  | 0 => .exhausted
  | fuel + 1 =>
    if arguments.length = p.params.length then
      evalBody fuel p.body .nil (s.bind p.params arguments)
    else
      .failed (.run (.wrongCount p.name (.exactly p.params.length) arguments.length)) s

end

/-- The forms of a program text. -/
def readForms (source : String) : Except Error (List Form) :=
  match tokenize source with
  | .error e => .error (.lex e)
  | .ok ts =>
    match parse ts with
    | .error e => .error (.parse e)
    | .ok fs => .ok fs

/-- Evaluates the forms of a program in order, to the value of the last one. -/
def evalForms (fuel : Nat) (fs : List Form) (s : Session) : Outcome Value :=
  evalBody fuel fs .nil s

/-- Reads a whole program text, then evaluates it. -/
def evalSource (fuel : Nat) (source : String) (s : Session) : Outcome Value :=
  match readForms source with
  | .ok fs => evalForms fuel fs s
  | .error e => .failed e s

end FlatLisp
