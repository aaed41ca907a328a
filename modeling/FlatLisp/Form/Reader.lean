import FlatLisp.Token
import FlatLisp.Value

/-!
# Reading forms from tokens

The reader takes one token at a time. Its state holds the finished forms, the innermost
unfinished form (`Focus`), and below it the forms that wait for that one as their next part
(`Slot`). A slot always takes a form, so no state is out of place by its type. A token is
refused with the reason that the focus gives; a text that ends early is refused with what
its focus still lacks, and any such text can be continued.
-/

namespace FlatLisp

/-- The forms and parts of forms that messages speak of. -/
inductive Context where
  | sequence
  | form (k : Keyword)
  | target
  | functionName
  | parameter
deriving DecidableEq

def Context.text : Context → String
  | .sequence => "sequence"
  | .form k => k.word
  | .target => "set target"
  | .functionName => "function name"
  | .parameter => "function parameter"

/-- Why tokens do not make up forms. -/
inductive ParseError where
  | missingClose (c : Context)
  | missingPart (c : Context)
  | missingParameterClose
  | missingParameters (function : String)
  | tooFew (c : Context)
  | tooMany (c : Context)
  | notSymbol (c : Context) (source : String) (line : Nat)
  | strayClose (line : Nat)
  | strayKeyword (source : String) (line : Nat)
deriving DecidableEq

def ParseError.message : ParseError → String
  | .missingClose c => "missing ')' to close " ++ c.text
  | .missingPart c => "unexpected end of input in " ++ c.text
  | .missingParameterClose => "missing ')' to close parameter list"
  | .missingParameters function => "expected parameter list after defn " ++ function
  | .tooFew c => "too few expressions in " ++ c.text
  | .tooMany c => "too many expressions in " ++ c.text
  | .notSymbol c source line =>
    c.text ++ " must be a symbol but got '" ++ source ++ "' on line " ++ toString line
  | .strayClose line => "unexpected ')' on line " ++ toString line
  | .strayKeyword source line =>
    "'" ++ source ++ "' can only appear at the start of a form (line " ++ toString line ++ ")"

/-- An unfinished form whose next part is a form. Lists of parts have the last one first. -/
inductive Slot where
  | apply (items : List Form)
  | assignValue (target : String)
  | branchTest
  | branchYes (test : Form)
  | branchNo (test yes : Form)
  | whileTest
  | whileBody (test : Form) (body : List Form)
  | forStart
  | forTest (start : Form)
  | forStep (start test : Form)
  | forBody (start test step : Form) (body : List Form)
  | defineBody (name : String) (params : List String) (body : List Form)

/-- The innermost unfinished form. -/
inductive Focus where
  /-- Between the forms of the program. -/
  | ground
  /-- Directly after an opening parenthesis. -/
  | opened
  | slot (s : Slot)
  | assignTarget
  | assignEnd (target : String) (value : Form)
  | branchEnd (test yes no : Form)
  | defineName
  | defineOpen (name : String)
  | defineParams (name : String) (params : List String)

/-- The state of the reader: finished forms, last one first, the innermost unfinished form,
and the slots that wait below it. -/
structure Reader where
  done : List Form
  focus : Focus
  below : List Slot

namespace Slot

/-- The state after the slot has taken its form. -/
def fill (f : Form) : Slot → Focus
  | .apply items => .slot (.apply (f :: items))
  | .assignValue target => .assignEnd target f
  | .branchTest => .slot (.branchYes f)
  | .branchYes test => .slot (.branchNo test f)
  | .branchNo test yes => .branchEnd test yes f
  | .whileTest => .slot (.whileBody f [])
  | .whileBody test body => .slot (.whileBody test (f :: body))
  | .forStart => .slot (.forTest f)
  | .forTest start => .slot (.forStep start f)
  | .forStep start test => .slot (.forBody start test f [])
  | .forBody start test step body => .slot (.forBody start test step (f :: body))
  | .defineBody name params body => .slot (.defineBody name params (f :: body))

/-- The form that a closing parenthesis ends here, if nothing is lacking. -/
def close? : Slot → Option Form
  | .apply items => some (.apply items.reverse)
  | .whileBody test body => some (.whileLoop test body.reverse)
  | .forBody start test step body => some (.forLoop start test step body.reverse)
  | .defineBody name params body => some (.define name params body.reverse)
  | _ => none

/-- The form that the slot belongs to. -/
def context : Slot → Context
  | .apply _ => .sequence
  | .assignValue _ => .form .assign
  | .branchTest | .branchYes _ | .branchNo _ _ => .form .branch
  | .whileTest | .whileBody _ _ => .form .whileLoop
  | .forStart | .forTest _ | .forStep _ _ | .forBody _ _ _ _ => .form .forLoop
  | .defineBody _ _ _ => .form .define

/-- What is lacking when the text ends here. -/
def atEnd (s : Slot) : ParseError :=
  if s.close?.isSome then .missingClose s.context else .missingPart s.context

end Slot

/-- The state behind the keyword of a special form. -/
def Keyword.focus : Keyword → Focus
  | .assign => .assignTarget
  | .branch => .slot .branchTest
  | .whileLoop => .slot .whileTest
  | .forLoop => .slot .forStart
  | .define => .defineName

namespace Reader

/-- The reader before the first token. -/
def start : Reader := ⟨[], .ground, []⟩

/-- Hands a finished form to the slot that waits for it, or to the program. -/
def deliver (f : Form) (done : List Form) : List Slot → Reader
  | [] => ⟨f :: done, .ground, []⟩
  | s :: below => ⟨done, s.fill f, below⟩

/-- Reads the first token of a form, for which the slots of `waiting` wait. A closing
parenthesis is none. -/
def begin (done : List Form) (waiting : List Slot) (t : Token) : Except ParseError Reader :=
  match t.kind with
  | .leftParen => .ok ⟨done, .opened, waiting⟩
  | .symbol n => .ok (deliver (.symbol n) done waiting)
  | .number x => .ok (deliver (.literal (.number x)) done waiting)
  | .string s => .ok (deliver (.literal (.string s)) done waiting)
  | .rightParen => .error (.strayClose t.line)
  | .keyword _ => .error (.strayKeyword t.source t.line)

/-- Reads a token at a slot: the end of the form, or the start of the slot's next part. -/
def atSlot (done : List Form) (s : Slot) (below : List Slot) (t : Token) :
    Except ParseError Reader :=
  if t.kind = .rightParen then
    match s.close? with
    | some f => .ok (deliver f done below)
    | none => .error (.tooFew s.context)
  else begin done (s :: below) t

/-- Reads a token where a symbol must stand. -/
def symbolAt (c : Context) (t : Token) : Except ParseError String :=
  match t.kind with
  | .symbol n => .ok n
  | _ => .error (.notSymbol c t.source t.line)

/-- Reads a token where only the end of the form may follow. -/
def endAt (f : Form) (k : Keyword) (done : List Form) (below : List Slot) (t : Token) :
    Except ParseError Reader :=
  if t.kind = .rightParen then .ok (deliver f done below) else .error (.tooMany (.form k))

/-- Reads one token. -/
def step (r : Reader) (t : Token) : Except ParseError Reader :=
  match r.focus with
  | .ground => begin r.done r.below t
  | .opened =>
    match t.kind with
    | .keyword k => .ok ⟨r.done, k.focus, r.below⟩
    | _ => atSlot r.done (.apply []) r.below t
  | .slot s => atSlot r.done s r.below t
  | .assignTarget => (symbolAt .target t).map fun n => ⟨r.done, .slot (.assignValue n), r.below⟩
  | .assignEnd target value => endAt (.assign target value) .assign r.done r.below t
  | .branchEnd test yes no => endAt (.branch test yes no) .branch r.done r.below t
  | .defineName => (symbolAt .functionName t).map fun n => ⟨r.done, .defineOpen n, r.below⟩
  | .defineOpen name =>
    if t.kind = .leftParen then .ok ⟨r.done, .defineParams name [], r.below⟩
    else .error (.missingParameters name)
  | .defineParams name params =>
    if t.kind = .rightParen then
      .ok ⟨r.done, .slot (.defineBody name params.reverse []), r.below⟩
    else (symbolAt .parameter t).map fun p => ⟨r.done, .defineParams name (p :: params), r.below⟩

/-- Reads tokens in order, up to the first that is refused. -/
def run : Reader → List Token → Except ParseError Reader
  | r, [] => .ok r
  | r, t :: ts =>
    match r.step t with
    | .ok r' => r'.run ts
    | .error e => .error e

/-- The forms read when the text ends here, or what is lacking. -/
def finish (r : Reader) : Except ParseError (List Form) :=
  match r.focus with
  | .ground => .ok r.done.reverse
  | .opened => .error (.missingClose .sequence)
  | .slot s => .error s.atEnd
  | .assignTarget => .error (.missingPart .target)
  | .assignEnd _ _ => .error (.missingClose (.form .assign))
  | .branchEnd _ _ _ => .error (.missingClose (.form .branch))
  | .defineName => .error (.missingPart .functionName)
  | .defineOpen name => .error (.missingParameters name)
  | .defineParams _ _ => .error .missingParameterClose

end Reader

/-- The forms that tokens make up. -/
def parse (ts : List Token) : Except ParseError (List Form) :=
  match Reader.start.run ts with
  | .ok r => r.finish
  | .error e => .error e

end FlatLisp
