import FlatLisp.Eval
import FlatLisp.Proofs.Grammar
import FlatLisp.Proofs.Lexing

/-!
# Reading texts in a row

The reader never looks at the forms that it has finished (`Reader.above`), and it looks at the
line of a token only to report it (`ParseError.shift`). So the forms of two texts in a row are
those of the one and then those of the other.

* `Reader.step_carry`: a step further down and behind finished forms.
* `parse_append`: tokens of whole forms in front of others.
* `readFrom_append`: texts in a row, the second behind a boundary.
* `readForms_joined`: **readable texts and one more, joined by line ends**, have the forms of
  all, or the error of the last one, further down by the lines in front of it.
-/

namespace FlatLisp

/-- The same error `k` lines further down. -/
def ParseError.shift (k : Nat) : ParseError → ParseError
  | .notSymbol c source line => .notSymbol c source (line + k)
  | .strayClose line => .strayClose (line + k)
  | .strayKeyword source line => .strayKeyword source (line + k)
  | e => e

/-- The same error of a program `k` lines further down. -/
def Error.shift (k : Nat) : Error → Error
  | .lex e => .lex (e.shift k)
  | .parse e => .parse (e.shift k)
  | .run e => .run e

@[simp]
theorem Token.shift_zero : Token.shift 0 = id := rfl

@[simp]
theorem ParseError.shift_zero (e : ParseError) : e.shift 0 = e := by cases e <;> rfl

namespace Reader

/-! ## Further down, behind finished forms -/

/-- The same state with `base` finished before everything else. -/
def above (base : List Form) (r : Reader) : Reader := { r with done := r.done ++ base }

/-- The same result behind the forms `base`, and `k` lines further down. -/
def carry (base : List Form) (k : Nat) (m : Except ParseError Reader) : Except ParseError Reader :=
  (m.map (above base)).mapError (ParseError.shift k)

variable (base done : List Form) (k : Nat) (below : List Slot) (t : Token)

theorem deliver_above (f : Form) (waiting : List Slot) :
    deliver f (done ++ base) waiting = (deliver f done waiting).above base := by
  cases waiting <;> rfl

theorem begin_carry (waiting : List Slot) :
    begin (done ++ base) waiting (t.shift k) = carry base k (begin done waiting t) := by
  unfold begin
  cases h : t.kind <;>
    simp [Token.shift, h, carry, Except.map, Except.mapError, ParseError.shift, deliver_above, above]

theorem atSlot_carry (s : Slot) :
    atSlot (done ++ base) s below (t.shift k) = carry base k (atSlot done s below t) := by
  unfold atSlot
  rw [begin_carry]
  cases hs : s.close? <;> by_cases h : t.kind = .rightParen <;>
    simp [Token.shift, h, carry, Except.map, Except.mapError, ParseError.shift, deliver_above]

theorem endAt_carry (f : Form) (w : Keyword) :
    endAt f w (done ++ base) below (t.shift k) = carry base k (endAt f w done below t) := by
  unfold endAt
  by_cases h : t.kind = .rightParen <;>
    simp [Token.shift, h, carry, Except.map, Except.mapError, ParseError.shift, deliver_above]

theorem symbolAt_carry (c : Context) (focus : String → Focus) :
    (symbolAt c (t.shift k)).map (fun n => ⟨done ++ base, focus n, below⟩) =
      carry base k ((symbolAt c t).map fun n => ⟨done, focus n, below⟩) := by
  unfold symbolAt
  cases h : t.kind <;>
    simp [Token.shift, h, carry, Except.map, Except.mapError, ParseError.shift, above]

/-- **A step does not look at finished forms, and at a line only to report it.** -/
theorem step_carry (r : Reader) : (r.above base).step (t.shift k) = carry base k (r.step t) := by
  obtain ⟨done, focus, below⟩ := r
  have hkind : (t.shift k).kind = t.kind := rfl
  cases focus with
  | ground => exact begin_carry base done k t below
  | opened =>
    simp only [step, above, hkind]
    split
    · rfl
    · exact atSlot_carry base done k below t (.apply [])
  | slot s => exact atSlot_carry base done k below t s
  | assignTarget =>
    exact symbolAt_carry base done k below t .target fun n => .slot (.assignValue n)
  | assignEnd target value => exact endAt_carry base done k below t _ _
  | branchEnd test yes no => exact endAt_carry base done k below t _ _
  | defineName => exact symbolAt_carry base done k below t .functionName .defineOpen
  | defineOpen name => simp only [step, above, hkind]; split <;> rfl
  | defineParams name params =>
    simp only [step, above, hkind]
    split
    · rfl
    · exact symbolAt_carry base done k below t .parameter fun p => .defineParams name (p :: params)

theorem run_carry (r : Reader) (ts : List Token) :
    (r.above base).run (ts.map (Token.shift k)) = carry base k (r.run ts) := by
  induction ts generalizing r with
  | nil => rfl
  | cons t ts ih =>
    simp only [List.map_cons, run, step_carry]
    cases r.step t with
    | error e => rfl
    | ok r' => exact ih r'

/-- What is lacking at the end has no line. -/
theorem finish_carry (r : Reader) :
    (r.above base).finish =
      (r.finish.map (base.reverse ++ ·)).mapError (ParseError.shift k) := by
  obtain ⟨done, focus, below⟩ := r
  cases focus with
  | ground => simp [finish, above, Except.map, Except.mapError]
  | slot s =>
    simp only [finish, above, Slot.atEnd]
    split <;> rfl
  | _ => rfl

end Reader

/-! ## Tokens in a row -/

/-- **Tokens behind those of whole forms**, and further down. -/
theorem parse_append_shift {ts : List Token} {fs : List Form} (h : parse ts = .ok fs) (k : Nat)
    (us : List Token) :
    parse (ts ++ us.map (Token.shift k)) =
      ((parse us).map (fs ++ ·)).mapError (ParseError.shift k) := by
  -- behind whole forms the reader is as at the start, but for these forms
  have hts : Reader.start.run ts = .ok (Reader.start.above fs.reverse) := by
    simpa [Reader.start, Reader.above] using Reader.reads_program [] fs (textual_of_parse h) ts (flatAll_of_parse h)
  simp only [parse, Reader.run_append hts, Reader.run_carry]
  cases Reader.start.run us with
  | error e => rfl
  | ok r => exact (Reader.finish_carry fs.reverse k r).trans (by rw [List.reverse_reverse])

theorem parse_append {ts us : List Token} {fs : List Form} (h : parse ts = .ok fs) :
    parse (ts ++ us) = (parse us).map (fs ++ ·) := by
  have := parse_append_shift h 0 us
  cases hus : parse us <;> simpa [hus, Except.map, Except.mapError] using this

theorem parse_shift (k : Nat) (ts : List Token) :
    parse (ts.map (Token.shift k)) = (parse ts).mapError (ParseError.shift k) := by
  have hnil : parse [] = .ok [] := rfl
  have := parse_append_shift hnil k ts
  cases hts : parse ts <;> simpa [hts, Except.map, Except.mapError] using this

/-! ## Texts in a row -/

/-- The forms of a text that starts on the given line. -/
def readFrom (line : Nat) (cs : List Char) : Except Error (List Form) :=
  match scan line cs with
  | .error e => .error (.lex e)
  | .ok ts => (parse ts).mapError .parse

theorem readForms_eq (source : String) : readForms source = readFrom 1 source.toList := by
  unfold readForms readFrom
  rw [tokenize_eq_scan]
  cases scan 1 source.toList with
  | error e => rfl
  | ok ts =>
    simp only
    cases parse ts <;> rfl

theorem readFrom_eq_ok_iff {line : Nat} {cs : List Char} {fs : List Form} :
    readFrom line cs = .ok fs ↔ ∃ ts, scan line cs = .ok ts ∧ parse ts = .ok fs := by
  unfold readFrom
  cases scan line cs with
  | error e => simp
  | ok ts => cases h : parse ts <;> simp [Except.mapError, h]

/-- **Texts in a row**, the second behind a boundary. -/
theorem readFrom_append {line : Nat} {cs tail : List Char} {fs : List Form}
    (h : readFrom line cs = .ok fs) (ht : Boundary tail) :
    readFrom line (cs ++ tail) = (readFrom (line + cs.count '\n') tail).map (fs ++ ·) := by
  obtain ⟨ts, hts, hfs⟩ := readFrom_eq_ok_iff.1 h
  rw [readFrom, scan_append hts ht, readFrom]
  cases scan (line + cs.count '\n') tail with
  | error e => rfl
  | ok us =>
    simp only [Except.map, parse_append hfs]
    cases parse us <;> rfl

/-- Errors count their lines from the first line. -/
theorem readFrom_add (line k : Nat) (cs : List Char) :
    readFrom (line + k) cs = (readFrom line cs).mapError (Error.shift k) := by
  rw [readFrom, scan_add, readFrom]
  cases scan line cs with
  | error e => rfl
  | ok ts =>
    simp only [Except.map, Except.mapError, parse_shift]
    cases parse ts <;> rfl

/-- Whether a text is read does not depend on its first line. -/
theorem readFrom_line {line : Nat} {cs : List Char} {fs : List Form} (h : readFrom line cs = .ok fs)
    (line' : Nat) : readFrom line' cs = .ok fs := by
  rw [← Nat.zero_add line, readFrom_add] at h
  rw [← Nat.zero_add line', readFrom_add]
  cases h0 : readFrom 0 cs with
  | error e => simp [h0, Except.mapError] at h
  | ok gs => simpa [h0, Except.mapError] using h

theorem readFrom_newline (line : Nat) (cs : List Char) :
    readFrom line ('\n' :: cs) = readFrom (line + 1) cs := by
  rw [readFrom, scan_separator (by decide), readFrom]
  rfl

/-! ## Texts joined by line ends -/

/-- The text has forms. -/
def Readable (source : String) : Prop := ∃ fs, readForms source = .ok fs

/-- The forms of a readable text. -/
def formsOf (source : String) : List Form :=
  match readForms source with
  | .ok fs => fs
  | .error _ => []

theorem Readable.eq {source : String} (h : Readable source) :
    readForms source = .ok (formsOf source) := by
  obtain ⟨fs, hfs⟩ := h
  rw [formsOf, hfs]

/-- What stands in front of the last of several texts when they are joined by line ends. -/
def textBefore (sources : List String) : String := String.join (sources.map (· ++ "\n"))

theorem joined_eq (init : List String) (last : String) :
    "\n".intercalate (init ++ [last]) = textBefore init ++ last := by
  induction init with
  | nil => simp [textBefore]
  | cons source init ih =>
    rw [List.cons_append, String.intercalate_cons_of_ne_nil (by simp), ih]
    simp [textBefore, String.append_assoc]

theorem readFrom_textBefore {init : List String} (h : ∀ source ∈ init, Readable source)
    (line : Nat) (cs : List Char) :
    readFrom line ((textBefore init).toList ++ cs) =
      (readFrom (line + (textBefore init).toList.count '\n') cs).map (init.flatMap formsOf ++ ·) := by
  induction init generalizing line with
  | nil => cases hcs : readFrom line cs <;> simp [textBefore, Except.map, hcs]
  | cons source init ih =>
    have hsource : readFrom line source.toList = .ok (formsOf source) :=
      readFrom_line (readForms_eq source ▸ (h source (by simp)).eq) line
    have htext : (textBefore (source :: init)).toList =
        source.toList ++ '\n' :: (textBefore init).toList := by simp [textBefore]
    have hcount : line + (textBefore (source :: init)).toList.count '\n' =
        line + source.toList.count '\n' + 1 + (textBefore init).toList.count '\n' := by
      rw [htext, List.count_append, List.count_cons_self]
      omega
    rw [htext, List.append_assoc, List.cons_append, readFrom_append hsource (.cons (by decide) _),
      readFrom_newline, ih fun s hs => h s (List.mem_cons_of_mem source hs), ← htext, hcount]
    cases readFrom _ cs <;> simp [Except.map]

/-- **Readable texts and one more, joined by line ends.** -/
theorem readForms_joined {init : List String} (h : ∀ source ∈ init, Readable source)
    (last : String) :
    readForms ("\n".intercalate (init ++ [last])) =
      ((readForms last).map (init.flatMap formsOf ++ ·)).mapError
        (Error.shift ((textBefore init).toList.count '\n')) := by
  rw [joined_eq, readForms_eq, String.toList_append, readFrom_textBefore h, readFrom_add,
    ← readForms_eq]
  cases readForms last <;> rfl

end FlatLisp
