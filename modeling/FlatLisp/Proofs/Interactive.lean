import FlatLisp.Proofs.Buffers
import FlatLisp.Proofs.Joining
import FlatLisp.Proofs.Printing

/-!
# Interactive sessions and program files

A program that is typed into the interactive session is evaluated like the file with its text.
The session takes it in buffers, each of them readable, and these have the forms of the file, in
order. So the bindings come out the same; what is printed differs by the values that the session
shows behind each buffer.

The line editor of the session obeys backspaces, so a text with one means something else there.
Of the editor nothing is used but that it leaves other lines alone (`LineEditor.Documented`).

* `answers_of_ends`: a file that succeeds, and each of the buffers that make it up.
* `answerAll_iff_of_answers`: what a session prints behind each buffer.
* `interactive_agrees`: **a session and a file agree** on texts without backspaces.
* `backspace_matters`: with one, they need not.
-/

namespace FlatLisp

open Outcome

namespace Repl

/-! ## Buffers one after another -/

/-- Buffers succeed one after another, as files do: each with the text that its forms print, and
its value. -/
inductive Answers : List String → Session → List (String × Value) → Session → Prop
  | nil {s : Session} : Answers [] s [] s
  | cons {b : String} {bs : List String} {s s₁ s₂ : Session} {own : String} {v : Value}
    {parts : List (String × Value)} : Ends (fun n => evalSource n b s) (.done v s₁) →
    s₁.printed = s.printed ++ own → Answers bs s₁ parts s₂ → Answers (b :: bs) s ((own, v) :: parts) s₂

/-- The line that shows a value; nil is not shown. -/
def resultLine (v : Value) : String := if v.isNil then "" else v.text ++ "\n"

/-- What the forms of buffers print, in order. -/
def printedBy (parts : List (String × Value)) : String := String.join (parts.map Prod.fst)

/-- What the session prints: the text of each buffer, and behind it the line of its value. -/
def transcript (parts : List (String × Value)) : String :=
  String.join (parts.map fun part => part.1 ++ resultLine part.2)

theorem printedBy_cons (own : String) (v : Value) (parts : List (String × Value)) :
    printedBy ((own, v) :: parts) = own ++ printedBy parts := by
  simp [printedBy]

theorem transcript_cons (own : String) (v : Value) (parts : List (String × Value)) :
    transcript ((own, v) :: parts) = own ++ resultLine v ++ transcript parts := by
  simp [transcript]

variable {bs : List String} {s s' t : Session} {parts : List (String × Value)}

theorem Answers.printed (h : Answers bs s parts s') : s'.printed = s.printed ++ printedBy parts := by
  induction h with
  | nil => simp [printedBy]
  | cons _ hprinted _ ih => rw [ih, hprinted, printedBy_cons, String.append_assoc]

/-- A buffer that succeeds has a text of its own. -/
theorem exists_own {b : String} {v : Value} (h : Ends (fun n => evalSource n b s) (.done v s')) :
    ∃ own, s'.printed = s.printed ++ own ∧
      ∀ text, Ends (fun n => evalSource n b (s.printing text)) (.done v (s'.printing (text ++ own))) := by
  obtain ⟨own, hown⟩ := ends_printing h
  refine ⟨own, ?_, hown⟩
  -- behind the text that was printed it is the same run
  have hsame := (hown s.printed).unique (steady_evalSource b s) h
  obtain ⟨-, hs⟩ := Outcome.done.inj hsame
  rw [← hs]
  rfl

/-- **Buffers that succeed as one file succeed one after another.** -/
theorem answers_of_ends {last v : Value} (h : Ends (fun n => evalSources n bs last s) (.done v s')) :
    ∃ parts, Answers bs s parts s' := by
  induction bs generalizing last s with
  | nil =>
    obtain ⟨-, n, h⟩ := h
    obtain ⟨-, rfl⟩ := Outcome.done.inj h
    exact ⟨[], .nil⟩
  | cons b bs ih =>
    rcases ends_evalSources_cons.1 h with ⟨v₁, s₁, hfirst, hrest⟩ | ⟨e, s₁, -, h⟩
    · obtain ⟨own, hown, -⟩ := exists_own hfirst
      obtain ⟨parts, hparts⟩ := ih hrest
      exact ⟨(own, v₁) :: parts, .cons hfirst hown hparts⟩
    · exact absurd h (by simp)

/-! ## The session -/

theorem answer_done {n : Nat} {b : String} {v : Value} (h : evalSource n b s = .done v s') :
    answer n b s = some (s'.printing (s'.printed ++ resultLine v)) := by
  simp only [answer, h, resultLine]
  by_cases hv : v.isNil = true
  · rw [if_pos hv, if_pos hv, String.append_empty]
    rfl
  · rw [if_neg hv, if_neg hv]
    rfl

/-- More fuel does not change an answer. -/
theorem answer_of_le {n m : Nat} (hnm : n ≤ m) {b : String} (h : answer n b s = some t) :
    answer m b s = some t := by
  have hne : evalSource n b s ≠ .exhausted := by
    intro hexhausted
    rw [answer, hexhausted] at h
    exact absurd h (by simp)
  rw [← h, answer, answer, (steady_evalSource b s).of_le hnm hne]

theorem answerAll_of_le {n m : Nat} (hnm : n ≤ m) (h : answerAll n bs s = some t) :
    answerAll m bs s = some t := by
  induction bs generalizing s with
  | nil => exact h
  | cons b bs ih =>
    obtain ⟨s₁, hfirst, hrest⟩ := Option.bind_eq_some_iff.1 h
    exact Option.bind_eq_some_iff.2 ⟨s₁, answer_of_le hnm hfirst, ih hrest⟩

/-- Buffers that succeed are answered, each with its text and the line of its value. -/
theorem answerAll_of_answers (h : Answers bs s parts s') (text : String) :
    ∃ n, answerAll n bs (s.printing text) = some (s'.printing (text ++ transcript parts)) := by
  induction h generalizing text with
  | nil => exact ⟨0, by simp [answerAll, transcript]⟩
  | @cons b bs s s₁ s₂ own v parts hfirst hprinted _ ih =>
    obtain ⟨own', hown', hbehind⟩ := exists_own hfirst
    obtain rfl : own' = own := (String.append_right_inj s.printed).1 (hown'.symm.trans hprinted)
    obtain ⟨-, n, hn⟩ := hbehind text
    obtain ⟨m, hm⟩ := ih (text ++ own' ++ resultLine v)
    have hbuffer : answer n b (s.printing text) =
        some (s₁.printing (text ++ own' ++ resultLine v)) := answer_done hn
    refine ⟨max n m, Option.bind_eq_some_iff.2 ⟨_, answer_of_le (Nat.le_max_left n m) hbuffer, ?_⟩⟩
    have htext : text ++ transcript ((own', v) :: parts) =
        text ++ own' ++ resultLine v ++ transcript parts := by
      rw [transcript_cons]
      simp only [String.append_assoc]
    rw [htext]
    exact answerAll_of_le (Nat.le_max_right n m) hm

/-- **What the session prints** behind buffers that succeed. -/
theorem answerAll_iff_of_answers (h : Answers bs s parts s') :
    (∃ n, answerAll n bs s = some t) ↔ t = s'.printing (s.printed ++ transcript parts) := by
  obtain ⟨m, hm⟩ := answerAll_of_answers h s.printed
  constructor
  · rintro ⟨n, hn⟩
    have hboth := (answerAll_of_le (Nat.le_max_left n m) hn).symm.trans
      (answerAll_of_le (Nat.le_max_right n m) hm)
    exact Option.some.inj hboth
  · rintro rfl
    exact ⟨m, hm⟩

/-- A buffer that is answered behind some text succeeds or fails as it does in the file. -/
theorem ends_of_answer {n : Nat} {b text : String} (h : answer n b (s.printing text) = some t) :
    (∃ v s₁ text₁, Ends (fun n => evalSource n b s) (.done v s₁) ∧ t = s₁.printing text₁) ∨
      ∃ e s₁, Ends (fun n => evalSource n b s) (.failed e s₁) := by
  cases ho : evalSource n b (s.printing text) with
  | exhausted =>
    rw [answer, ho] at h
    exact absurd h (by simp)
  | failed e s₁ =>
    obtain ⟨own, hown⟩ := ends_printing ⟨by simp, n, ho⟩
    exact .inr ⟨e, _, hown s.printed⟩
  | done v s₁ =>
    obtain ⟨own, hown⟩ := ends_printing ⟨by simp, n, ho⟩
    rw [answer_done ho] at h
    exact .inl ⟨v, _, _, hown s.printed, (Option.some.inj h).symm⟩

/-- Buffers that are answered succeed in the file, if none of them fails. -/
theorem ends_of_answerAll {n : Nat} {last : Value} {text : String}
    (hfail : ∀ e s', ¬ Ends (fun n => evalSources n bs last s) (.failed e s'))
    (h : answerAll n bs (s.printing text) = some t) :
    ∃ v s', Ends (fun n => evalSources n bs last s) (.done v s') := by
  induction bs generalizing last s text with
  | nil => exact ⟨last, s, by simp, 0, rfl⟩
  | cons b bs ih =>
    obtain ⟨t₁, hfirst, hrest⟩ := Option.bind_eq_some_iff.1 h
    rcases ends_of_answer hfirst with ⟨v, s₁, text₁, hfile, rfl⟩ | ⟨e, s₁, hfile⟩
    · have hrestFails : ∀ e s', ¬ Ends (fun n => evalSources n bs
          (if (formsOf b).isEmpty then last else v) s₁) (.failed e s') := by
        intro e s' hend
        exact hfail e s' (ends_evalSources_cons.2 (.inl ⟨v, s₁, hfile, hend⟩))
      obtain ⟨v', s', hend⟩ := ih hrestFails hrest
      exact ⟨v', s', ends_evalSources_cons.2 (.inl ⟨v, s₁, hfile, hend⟩)⟩
    · exact absurd (ends_evalSources_cons.2 (.inr ⟨e, s₁, hfile, rfl⟩)) (hfail e s₁)

/-! ## Lines without backspaces -/

variable {edit : LineEditor}

theorem mem_of_mem_linesFrom {line cs : List Char} {l : String} (h : l ∈ linesFrom line cs) :
    ∀ c ∈ l.toList, c ∈ line ∨ c ∈ cs := by
  induction cs generalizing line with
  | nil =>
    by_cases hline : line.isEmpty = true
    · rw [linesFrom, if_pos hline] at h
      exact absurd h (by simp)
    · rw [linesFrom, if_neg hline, List.mem_singleton] at h
      intro c hc
      simpa [h] using hc
  | cons c cs ih =>
    by_cases hc : c = '\n'
    · rw [linesFrom, if_pos hc] at h
      rcases List.mem_cons.1 h with rfl | h
      · intro d hd
        rw [String.toList_ofList, List.mem_reverse] at hd
        split at hd
        · exact .inl (List.mem_of_mem_tail hd)
        · exact .inl hd
      · intro d hd
        have hnext := ih h d hd
        exact .inr (List.mem_cons_of_mem c (hnext.resolve_left (by simp)))
    · rw [linesFrom, if_neg hc] at h
      intro d hd
      rcases ih h d hd with hd | hd
      · rcases List.mem_cons.1 hd with rfl | hd
        · exact .inr List.mem_cons_self
        · exact .inl hd
      · exact .inr (List.mem_cons_of_mem c hd)

/-- Without backspaces the lines are read as they stand. -/
theorem inputLines_eq (hedit : edit.Documented) {source : String}
    (h : Backspace.key ∉ source.toList) : inputLines edit source = linesFrom [] source.toList := by
  have hline : ∀ l ∈ linesFrom [] source.toList, edit l = l := by
    intro l hl
    refine hedit.edit_of_notMem l fun hmem => ?_
    rcases mem_of_mem_linesFrom hl _ hmem with hnil | hsource
    · exact absurd hnil (by simp)
    · exact h hsource
  rw [inputLines, List.map_congr_left hline, List.map_id']

/-! ## Program files -/

/-- A program file that can be typed in: it has forms, no symbol in it has a quote, and its blank
lines are gaps between the forms. -/
structure Fits (source : String) (fs : List Form) : Prop where
  reads : readForms source = .ok fs
  unquoted : ∀ ts, tokenize source = .ok ts → Unquoted (ts.map Token.kind)
  blank : ∀ before line after, source.toList = before ++ line ++ after → IsLine before line after →
    isBlank (String.ofList line) = true → Gap line ∧ Readable (String.ofList before)

namespace Fits

variable {source : String} {fs : List Form}

theorem of_reads (h : readForms source = .ok fs) (hq : Unquoted (Form.flatAll fs))
    (hblank : ∀ before line after, source.toList = before ++ line ++ after →
      IsLine before line after → isBlank (String.ofList line) = true →
        Gap line ∧ Readable (String.ofList before)) : Fits source fs := by
  refine ⟨h, fun ts hts => ?_, hblank⟩
  have hkinds : Writes source.toList (ts.map Token.kind) := writes_of_scan hts
  rwa [hkinds.unique (readForms_iff_writes.1 h).2]

theorem unquoted_flatAll (h : Fits source fs) : Unquoted (Form.flatAll fs) := by
  obtain ⟨ts, hts, hkinds⟩ := (readForms_iff_writes.1 h.reads).2 1
  exact hkinds ▸ h.unquoted ts hts

/-- In front of a blank line there are whole forms, so none is open. -/
theorem blankApart (h : Fits source fs) : BlankApart 0 source.toList := by
  intro before line after htext hline hblank
  obtain ⟨hgap, gs, hgs⟩ := h.blank before line after htext hline hblank
  refine ⟨hgap, fun ks hks => ?_⟩
  have hforms := (readForms_iff_writes.1 hgs).2
  rw [String.toList_ofList] at hforms
  rw [hks.unique hforms, (Form.balanced_flatAll gs).total, add_zero]

theorem exists_cuts (h : Fits source fs) : ∃ bs, Cuts "" (linesFrom [] source.toList) fs bs := by
  have hnone : Writes "".toList [] := by simpa using Writes.nil
  obtain ⟨htextual, hwrites⟩ := readForms_iff_writes.1 h.reads
  exact Repl.exists_cuts hnone hwrites htextual rfl (.inl rfl) h.unquoted_flatAll h.blankApart

/-- The buffers of the file, if the line editor has nothing to do. -/
theorem cuts (h : Fits source fs) (hedit : edit.Documented)
    (hkey : Backspace.key ∉ source.toList) :
    Cuts "" (inputLines edit source) fs (buffers edit source) := by
  obtain ⟨bs, hbs⟩ := h.exists_cuts
  rw [← inputLines_eq hedit hkey] at hbs
  have hbuffers : buffers edit source = bs := by simpa [buffers, buffersFrom] using hbs.buffers []
  rwa [hbuffers]

end Fits

/-- A file has the outcomes of its buffers, one evaluated after another. -/
theorem ends_evalSource_iff {source : String} {fs : List Form} (h : readForms source = .ok fs)
    (hbs : ∀ b ∈ bs, Readable b) (hforms : bs.flatMap formsOf = fs) (s : Session)
    (o : Outcome Value) :
    Ends (fun n => evalSource n source s) o ↔ Ends (fun n => evalSources n bs .nil s) o := by
  have hagree := agree_evalSources hbs .nil s
  rw [hforms] at hagree
  simp only [evalSource_eq h]
  exact hagree o

/-- **An interactive session and a program file agree**, on a text without backspaces, whatever the
line editor makes of those. The session takes the text in readable buffers, whose forms are those of
the file, in order; no buffer is left open, so that further lines start anew. When the file succeeds,
the session ends with the same bindings, and it prints what the file prints, with a line for the
value of each buffer behind the text of that buffer. If no form fails, the session ends only when the
file does. -/
theorem interactive_agrees (hedit : edit.Documented) {source : String} {fs : List Form}
    (h : Fits source fs) (hkey : Backspace.key ∉ source.toList) :
    (∀ b ∈ buffers edit source, Readable b) ∧
      (∀ more, buffersFrom "" (inputLines edit source ++ more) =
        buffers edit source ++ buffersFrom "" more) ∧
      (buffers edit source).flatMap formsOf = fs ∧
      ∀ s : Session,
        (∀ v s', Ends (fun n => evalSource n source s) (.done v s') →
          ∃ parts, Answers (buffers edit source) s parts s' ∧
            s'.printed = s.printed ++ printedBy parts ∧
            ∀ t, (∃ n, run edit n source s = some t) ↔ t = s'.printing (s.printed ++ transcript parts)) ∧
        ((∀ e s', ¬ Ends (fun n => evalSource n source s) (.failed e s')) →
          ∀ n t, run edit n source s = some t →
            ∃ v s', Ends (fun n => evalSource n source s) (.done v s')) := by
  have hcuts := h.cuts hedit hkey
  refine ⟨hcuts.readable, hcuts.buffers, hcuts.forms, fun s => ?_⟩
  have hfile := ends_evalSource_iff h.reads hcuts.readable hcuts.forms s
  refine ⟨fun v s' hend => ?_, fun hfail n t hrun => ?_⟩
  · obtain ⟨parts, hparts⟩ := answers_of_ends ((hfile _).1 hend)
    exact ⟨parts, hparts, hparts.printed, fun t => answerAll_iff_of_answers hparts⟩
  · have hrun : answerAll n (buffers edit source) (s.printing s.printed) = some t := hrun
    obtain ⟨v, s', hend⟩ := ends_of_answerAll (fun e s' he => hfail e s' ((hfile _).2 he)) hrun
    exact ⟨v, s', (hfile _).2 hend⟩

/-- Two forms, one of them on two lines, with a blank line between them. -/
def copyFile : String := "(set\nx y)\n \nx"

def copyForms : List Form := [.assign "x" (.symbol "y"), .symbol "x"]

theorem fits_copyFile : Fits copyFile copyForms := by
  have hcut : Lexeme.cut 1 copyFile.toList = .ok [(1, .leftParen), (1, .word "set"), (2, .word "x"),
      (2, .word "y"), (2, .rightParen), (4, .word "x")] := by cbv
  have hreads : readForms copyFile = .ok copyForms := by
    rw [readForms, tokenize, hcut]
    rfl
  have hfront : Lexeme.cut 1 "(set\nx y)\n".toList = .ok [(1, .leftParen), (1, .word "set"),
      (2, .word "x"), (2, .word "y"), (2, .rightParen)] := by cbv
  have hset : readForms "(set\nx y)\n" = .ok [.assign "x" (.symbol "y")] := by
    rw [readForms, tokenize, hfront]
    rfl
  refine .of_reads hreads ?_ ?_
  · simp [Unquoted, copyForms, Form.flatAll, Form.flat, Keyword.opening]
  intro before line after htext hline hblank
  have htext : "(set".toList ++ '\n' :: ("x y)".toList ++ '\n' :: (" ".toList ++ '\n' :: "x".toList)) =
      before ++ line ++ after := htext
  rcases hline.first_or_behind (by decide) htext with ⟨-, rfl⟩ | ⟨text, rfl, htext, hline⟩
  · exact absurd hblank (by decide)
  rcases hline.first_or_behind (by decide) htext with ⟨-, rfl⟩ | ⟨text, rfl, htext, hline⟩
  · exact absurd hblank (by decide)
  rcases hline.first_or_behind (by decide) htext with ⟨rfl, rfl⟩ | ⟨text, rfl, htext, hline⟩
  · exact ⟨by simp [Gap]; decide, _, hset⟩
  · obtain ⟨-, rfl⟩ := hline.eq_text (by decide) htext
    exact absurd hblank (by decide)

/-- A session in which `y` is bound. -/
def copySession : Session := (Session.fresh .empty).define "y" (.string "a")

/-- Typed in or loaded, the file binds `x`. -/
theorem interactive_agrees_copyFile :
    editor.Documented ∧ Fits copyFile copyForms ∧ Backspace.key ∉ copyFile.toList ∧
      (∀ b ∈ buffers editor copyFile, Readable b) ∧
      (buffers editor copyFile).flatMap formsOf = copyForms ∧
      ∃ n t, run editor n copyFile copySession = some t ∧
        t.env = (copySession.define "x" (.string "a")).env := by
  have hkey : Backspace.key ∉ copyFile.toList := by decide
  obtain ⟨hread, -, hforms, hrun⟩ := interactive_agrees editor_documented fits_copyFile hkey
  have hfile : Ends (fun n => evalSource n copyFile copySession)
      (.done (.string "a") (copySession.define "x" (.string "a"))) := by
    refine ⟨by simp, 4, ?_⟩
    simp only [evalSource_eq fits_copyFile.reads, copyForms, evalBody, eval]
    simp [copySession, Outcome.andThen, Session.define, Environment.find?_define]
  obtain ⟨parts, -, -, hsession⟩ := (hrun copySession).1 _ _ hfile
  obtain ⟨n, hn⟩ := (hsession _).2 rfl
  exact ⟨editor_documented, fits_copyFile, hkey, hread, hforms, n, _, hn, rfl⟩

/-- A name with a backspace in it. -/
def erasedFile : String := "(set a\x08 t)"

/-- **Backspaces matter.** The file is readable, but the session does not take a readable buffer. -/
theorem backspace_matters :
    Fits erasedFile [.assign "a\x08" (.symbol "t")] ∧ ¬ ∀ b ∈ buffers editor erasedFile, Readable b := by
  have hcut : Lexeme.cut 1 erasedFile.toList = .ok [(1, .leftParen), (1, .word "set"),
      (1, .word "a\x08"), (1, .word "t"), (1, .rightParen)] := by cbv
  have hreads : readForms erasedFile = .ok [.assign "a\x08" (.symbol "t")] := by
    rw [readForms, tokenize, hcut]
    rfl
  have hbuffers : buffers editor erasedFile = ["(set  t)"] := by decide
  have hleft : Lexeme.cut 1 "(set  t)".toList = .ok [(1, .leftParen), (1, .word "set"), (1, .word "t"),
      (1, .rightParen)] := by cbv
  have hbroken : readForms "(set  t)" = .error (.parse (.tooFew (.form .assign))) := by
    rw [readForms, tokenize, hleft]
    rfl
  refine ⟨.of_reads hreads ?_ ?_, ?_⟩
  · simp [Unquoted, Form.flatAll, Form.flat, Keyword.opening]
  · intro before line after htext hline hblank
    obtain ⟨-, rfl⟩ := hline.eq_text (by decide) htext
    exact absurd hblank (by decide)
  · intro hread
    obtain ⟨fs, hfs⟩ := hread "(set  t)" (by simp [hbuffers])
    exact absurd (hbroken.symm.trans hfs) (by simp)

end Repl

end FlatLisp
