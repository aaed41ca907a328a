import FlatLisp.Text.Quoted
import FlatLisp.Value

/-!
# The text of forms

Forms are written on one line with single spaces; the text reads back as the same form if its
literals are of those that the reader makes.
-/

namespace FlatLisp

/-- A value as it is written in a form: a string between quotes, another one as it is printed. -/
def Value.literalText : Value → String
  | .string s => "\"" ++ Quoted.encode s ++ "\""
  | v => v.text

mutual

/-- A form as program text. -/
def Form.text : Form → String
  | .literal v => v.literalText
  | .symbol name => name
  | .apply [] => "()"
  | .apply (f :: fs) => "(" ++ f.text ++ Form.textAfter fs ++ ")"
  | .assign target value => "(set " ++ target ++ " " ++ value.text ++ ")"
  | .branch test yes no => "(if " ++ test.text ++ " " ++ yes.text ++ " " ++ no.text ++ ")"
  | .whileLoop test body => "(while " ++ test.text ++ Form.textAfter body ++ ")"
  | .forLoop start test step body =>
    "(for " ++ start.text ++ " " ++ test.text ++ " " ++ step.text ++ Form.textAfter body ++ ")"
  | .define name params body =>
    "(defn " ++ name ++ " (" ++ " ".intercalate params ++ ")" ++ Form.textAfter body ++ ")"

/-- Forms as program text, each behind a space. -/
def Form.textAfter : List Form → String
  | [] => ""
  | f :: fs => " " ++ f.text ++ Form.textAfter fs

end

end FlatLisp
