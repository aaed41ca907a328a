import FlatLisp.CommandLine
import FlatLisp.Proofs.Joining
import FlatLisp.Proofs.Printing

/-!
# Running files

A run evaluates the prelude, the libraries and the program in one environment and stops at
the first that fails. Each file is read when its turn comes, so what stands in later files,
or whether there are any, has no effect.

What a file prints is its own: it is the same behind any text that was printed before it
(`ends_behind`), so a file is looked at as if nothing was printed yet (`Evaluates`, `Fails`).

* `Reading.perform_record`, `Reading.eq_of_sources`: what is read, and that nothing else has an
  effect.
* `readFiles_comes`, `EvaluateAll.readFiles_append`: what comes of files, and what is read for it,
  with any fuel and with enough.
* `files_in_turn`: **a run stops at the first file that fails.**
-/

namespace FlatLisp

open Outcome

/-! ## What is read -/

namespace Reading

variable {α β : Type} (texts : Source → Contents)

theorem result_bind (r : Reading α) (next : α → Reading β) :
    (r.bind next).result texts = (next (r.result texts)).result texts := by
  induction r with
  | done a => rfl
  | read source go ih => exact ih (texts source)

theorem sources_bind (r : Reading α) (next : α → Reading β) :
    (r.bind next).sources texts = r.sources texts ++ (next (r.result texts)).sources texts := by
  induction r with
  | done a => rfl
  | read source go ih => exact congrArg (source :: ·) (ih (texts source))

/-- Carried out on given texts and with a record, a reading comes to its result, and its sources
are recorded in order. -/
theorem perform_record (r : Reading α) (seen : List Source) :
    (r.perform (m := StateM (List Source)) fun source => do
      modify (· ++ [source])
      pure (texts source)).run seen = (r.result texts, seen ++ r.sources texts) := by
  induction r generalizing seen with
  | done a => simp [perform, result, sources]; rfl
  | read source go ih =>
    have h := ih (texts source) (seen ++ [source])
    rw [List.append_assoc] at h
    exact h

variable {texts} {texts' : Source → Contents}

/-- What is not read has no effect. -/
theorem eq_of_sources {r : Reading α} (h : ∀ source ∈ r.sources texts, texts' source = texts source) :
    r.result texts' = r.result texts ∧ r.sources texts' = r.sources texts := by
  induction r with
  | done a => exact ⟨rfl, rfl⟩
  | read source go ih =>
    have hsource : texts' source = texts source := h source (by simp [sources])
    obtain ⟨hresult, hsources⟩ := ih (texts source) fun source' h' => h source' (by simp [sources, h'])
    simp only [result, sources, hsource]
    exact ⟨hresult, congrArg (source :: ·) hsources⟩

end Reading

/-! ## One file -/

/-- A file can be read and parsed, and in the environment of the session its forms evaluate
without error. What the session behind it has printed is what the file prints. -/
inductive Evaluates (files : Files) (name : String) (s s' : Session) : Prop
  | intro {source : String} {fs : List Form} {v : Value} (hread : files name = .ok source)
      (hforms : readForms source = .ok fs)
      (heval : Ends (fun fuel => evalForms fuel fs (s.printing "")) (.done v s'))

/-- A file fails with an error, and prints a text first. -/
inductive Fails (files : Files) (name : String) (s : Session) : Error → String → Prop
  | unreadable {why : ReadError} (hread : files name = .error why) :
      Fails files name s (.run (.unreadableFile name why)) ""
  | malformed {source : String} {e : Error} (hread : files name = .ok source)
      (hforms : readForms source = .error e) : Fails files name s e ""
  | evaluation {source : String} {fs : List Form} {e : Error} {s' : Session}
      (hread : files name = .ok source) (hforms : readForms source = .ok fs)
      (heval : Ends (fun fuel => evalForms fuel fs (s.printing "")) (.failed e s')) :
      Fails files name s e s'.printed

section Files

variable {files : Files} {name : String} {s s' : Session} {e : Error} {own : String}

theorem runFile_eq {source : String} {fs : List Form} (hread : files name = .ok source)
    (hforms : readForms source = .ok fs) (n : Nat) (s : Session) :
    runFile n files name s = evalForms n fs s := by
  rw [runFile, hread]
  exact evalSource_eq hforms n s

theorem runFile_malformed {source : String} (hread : files name = .ok source)
    (hforms : readForms source = .error e) (n : Nat) (s : Session) :
    runFile n files name s = .failed e s := by
  simp only [runFile, hread, evalSource, hforms]

theorem runFile_unreadable {why : ReadError} (hread : files name = .error why) (n : Nat)
    (s : Session) : runFile n files name s = .failed (.run (.unreadableFile name why)) s := by
  rw [runFile, hread]

/-- What comes of a file with some fuel. -/
theorem runFile_cases (n : Nat) (files : Files) (name : String) (s : Session) :
    (∃ v s', Evaluates files name s s' ∧ runFile n files name s = .done v (s'.behind s.printed)) ∨
      (∃ e own s', Fails files name s e own ∧ runFile n files name s = .failed e s' ∧
        s'.printed = s.printed ++ own) ∨
      runFile n files name s = .exhausted := by
  cases hread : files name with
  | error why =>
    exact .inr (.inl ⟨_, _, s, .unreadable hread, runFile_unreadable hread n s, by simp⟩)
  | ok source =>
    cases hforms : readForms source with
    | error e =>
      have hrun := runFile_malformed hread hforms n s
      exact .inr (.inl ⟨e, _, s, .malformed hread hforms, hrun, by simp⟩)
    | ok fs =>
      have hrun := runFile_eq hread hforms n s
      by_cases hne : evalForms n fs s = .exhausted
      · exact .inr (.inr (hrun.trans hne))
      · obtain ⟨o, ho, hbehind⟩ := ends_behind.1 ⟨hne, n, rfl⟩
        cases o with
        | done v s' => exact .inl ⟨v, s', .intro hread hforms ho, hrun.trans hbehind⟩
        | failed e s' =>
          exact .inr (.inl ⟨e, _, _, .evaluation hread hforms ho, hrun.trans hbehind, rfl⟩)
        | exhausted => exact absurd hbehind hne

theorem Evaluates.runFile (h : Evaluates files name s s') :
    ∃ v enough, ∀ n, enough ≤ n → runFile n files name s = .done v (s'.behind s.printed) := by
  obtain ⟨hread, hforms, heval⟩ := h
  obtain ⟨enough, henough⟩ := (ends_behind.2 ⟨_, heval, rfl⟩).eventually (steady_evalBody _ .nil s)
  exact ⟨_, enough, fun n hn => (runFile_eq hread hforms n s).trans (henough n hn)⟩

theorem Fails.runFile (h : Fails files name s e own) :
    ∃ s' enough, s'.printed = s.printed ++ own ∧
      ∀ n, enough ≤ n → runFile n files name s = .failed e s' := by
  cases h with
  | unreadable hread => exact ⟨s, 0, by simp, fun n _ => runFile_unreadable hread n s⟩
  | malformed hread hforms => exact ⟨s, 0, by simp, fun n _ => runFile_malformed hread hforms n s⟩
  | evaluation hread hforms heval =>
    obtain ⟨enough, henough⟩ := (ends_behind.2 ⟨_, heval, rfl⟩).eventually (steady_evalBody _ .nil s)
    exact ⟨_, enough, rfl, fun n hn => (runFile_eq hread hforms n s).trans (henough n hn)⟩

/-- A file does not see what was printed before it. -/
theorem Evaluates.printing (h : Evaluates files name s s') (text : String) :
    Evaluates files name (s.printing text) s' := by
  obtain ⟨hread, hforms, heval⟩ := h
  exact ⟨hread, hforms, heval⟩

theorem Fails.printing (h : Fails files name s e own) (text : String) :
    Fails files name (s.printing text) e own := by
  cases h with
  | unreadable hread => exact .unreadable hread
  | malformed hread hforms => exact .malformed hread hforms
  | evaluation hread hforms heval => exact .evaluation hread hforms heval

end Files

/-! ## Files in turn -/

/-- Files all evaluate without error, one after another; `texts` is what each of them prints.
The session behind them is left as if nothing was printed. -/
inductive EvaluateAll (files : Files) : List String → Session → List String → Session → Prop
  | nil (s : Session) : EvaluateAll files [] s [] (s.printing "")
  | cons {name : String} {names : List String} {s s' s'' : Session} {texts : List String}
      (hfirst : Evaluates files name s s') (hrest : EvaluateAll files names s' texts s'') :
      EvaluateAll files (name :: names) s (s'.printed :: texts) s''

/-- Files do not see what was printed before them. -/
theorem EvaluateAll.printing {files : Files} {names texts : List String} {s s' : Session}
    (h : EvaluateAll files names s texts s') (text : String) :
    EvaluateAll files names (s.printing text) texts s' := by
  cases h with
  | nil => exact .nil _
  | cons hfirst hrest => exact .cons (hfirst.printing text) hrest

/-- What files come to, and what is read for it: all evaluate, or one of them is the first to
fail, or one does not end with the fuel that there is. -/
inductive Comes (files : Files) (names : List String) (s : Session) :
    Outcome Unit → List String → Prop
  | done {texts : List String} {s' t : Session} (hall : EvaluateAll files names s texts s')
      (ht : t.printed = s.printed ++ String.join texts) : Comes files names s (.done () t) names
  | failed {before after texts : List String} {failing own : String} {e : Error} {s' t : Session}
      (hnames : names = before ++ failing :: after)
      (hbefore : EvaluateAll files before s texts s') (hfails : Fails files failing s' e own)
      (ht : t.printed = s.printed ++ (String.join texts ++ own)) :
      Comes files names s (.failed e t) (before ++ [failing])
  | exhausted {before after texts : List String} {running : String} {s' : Session}
      (hnames : names = before ++ running :: after)
      (hbefore : EvaluateAll files before s texts s') :
      Comes files names s .exhausted (before ++ [running])

/-- A file that evaluates comes first. -/
theorem Comes.cons {files : Files} {name : String} {names read : List String} {s s' : Session}
    {o : Outcome Unit} (hfirst : Evaluates files name s s')
    (h : Comes files names (s'.behind s.printed) o read) :
    Comes files (name :: names) s o (name :: read) := by
  have hall : ∀ {names texts s''}, EvaluateAll files names (s'.behind s.printed) texts s'' →
      EvaluateAll files (name :: names) s (s'.printed :: texts) s'' :=
    fun h => .cons hfirst (h.printing s'.printed)
  have hprinted : ∀ text, (s'.behind s.printed).printed ++ text = s.printed ++ (s'.printed ++ text) :=
    fun text => String.append_assoc ..
  cases h with
  | done h ht => exact .done (hall h) (by rw [ht, hprinted, String.join_cons])
  | failed hnames hbefore hfails ht =>
    subst hnames
    refine Comes.failed rfl (hall hbefore) hfails ?_
    rw [ht, hprinted, String.join_cons, String.append_assoc]
  | exhausted hnames hbefore =>
    subst hnames
    exact Comes.exhausted rfl (hall hbefore)

/-- A file is read only when all files before it have been evaluated. -/
theorem Comes.evaluated {files : Files} {names read : List String} {s : Session} {o : Outcome Unit}
    (h : Comes files names s o read) : ∃ before after texts s', names = before ++ after ∧
      EvaluateAll files before s texts s' ∧ read = before ++ after.take 1 := by
  cases h with
  | done hall ht => exact ⟨names, [], _, _, (List.append_nil names).symm, hall, by simp⟩
  | failed hnames hbefore hfails ht => exact ⟨_, _, _, _, hnames, hbefore, rfl⟩
  | exhausted hnames hbefore => exact ⟨_, _, _, _, hnames, hbefore, rfl⟩

section InTurn

variable (r : Surroundings) (n : Nat) (name : String) (names : List String) (s : Session)

theorem result_readFiles_cons :
    (readFiles n (name :: names) s).result r.texts =
      match runFile n r.files name s with
      | .done _ s => (readFiles n names s).result r.texts
      | .failed e s => .failed e s
      | .exhausted => .exhausted := by
  have hrun : runFile n (fun _ => r.texts (.file name)) name s = runFile n r.files name s := rfl
  simp only [readFiles, Reading.result, hrun]
  cases runFile n r.files name s <;> rfl

theorem sources_readFiles_cons :
    (readFiles n (name :: names) s).sources r.texts =
      .file name ::
        match runFile n r.files name s with
        | .done _ s => (readFiles n names s).sources r.texts
        | _ => [] := by
  have hrun : runFile n (fun _ => r.texts (.file name)) name s = runFile n r.files name s := rfl
  simp only [readFiles, Reading.sources, hrun]
  cases runFile n r.files name s <;> rfl

/-- **What comes of files**, whatever the fuel, and what is read for it. -/
theorem readFiles_comes :
    ∃ read, (readFiles n names s).sources r.texts = read.map .file ∧
      Comes r.files names s ((readFiles n names s).result r.texts) read := by
  induction names generalizing s with
  | nil => exact ⟨[], rfl, .done (.nil s) (by simp)⟩
  | cons name names ih =>
    rw [result_readFiles_cons, sources_readFiles_cons]
    -- the first file evaluates, fails, or does not end
    rcases runFile_cases n r.files name s with
      ⟨v, s', hfirst, hrun⟩ | ⟨e, own, s', hfails, hrun, hprinted⟩ | hrun <;> simp only [hrun]
    · obtain ⟨read, hread, hcomes⟩ := ih (s'.behind s.printed)
      exact ⟨name :: read, by rw [hread, List.map_cons], .cons hfirst hcomes⟩
    · refine ⟨[name], rfl, .failed (List.nil_append _).symm (.nil s) (hfails.printing "") ?_⟩
      simpa using hprinted
    · exact ⟨[name], rfl, .exhausted (List.nil_append _).symm (.nil s)⟩

end InTurn

variable {r : Surroundings} {i : Invocation} {names texts : List String} {s s' : Session}

/-- Behind files that evaluate the others follow, with enough fuel. -/
theorem EvaluateAll.readFiles_append (h : EvaluateAll r.files names s texts s') (text : String) :
    ∃ enough, ∀ n, enough ≤ n → ∀ rest,
      (readFiles n (names ++ rest) (s.printing text)).result r.texts =
          (readFiles n rest (s'.printing (text ++ String.join texts))).result r.texts ∧
        (readFiles n (names ++ rest) (s.printing text)).sources r.texts =
          names.map .file ++
            (readFiles n rest (s'.printing (text ++ String.join texts))).sources r.texts := by
  induction h generalizing text with
  | nil s =>
    refine ⟨0, fun n _ rest => ?_⟩
    rw [String.join_nil, String.append_empty]
    exact ⟨rfl, rfl⟩
  | cons hfirst hrest ih =>
    -- the first file has printed behind `text` when the others are reached
    obtain ⟨v, enough, hrun⟩ := (hfirst.printing text).runFile
    obtain ⟨enough', hnames⟩ := ih (text ++ _)
    refine ⟨max enough enough', fun n hn rest => ?_⟩
    obtain ⟨hresult, hsources⟩ := hnames n (by omega) rest
    rw [String.join_cons, ← String.append_assoc, List.cons_append, result_readFiles_cons,
      sources_readFiles_cons, hrun n (by omega)]
    exact ⟨hresult, congrArg (_ :: ·) hsources⟩

/-! ## The run -/

/-- With enough fuel the run exits in this way, and has read these sources. -/
def Exits (words : List String) (r : Surroundings) (exit : Exit) (read : List Source) : Prop :=
  ∃ fuel, answer words fuel r = some exit ∧ (answering words fuel r.prelude).sources r.texts = read

/-- The program is evaluated like one more library. -/
theorem readFiles_bind_program {name : String} (hname : name ≠ "-") (fuel : Nat)
    (names : List String) (s : Session) :
    ((readFiles fuel names s).bind fun o => Invocation.continue? o fun s =>
      .read (Invocation.source name) fun contents =>
        .done (Exit.ofOutcome (Invocation.runProgram fuel name contents s) fun _ => "")) =
      (readFiles fuel (names ++ [name]) s).bind fun o => .done (Exit.ofOutcome o fun _ => "") := by
  induction names generalizing s with
  | nil =>
    simp only [readFiles, Reading.bind, Invocation.continue?, Invocation.source, if_neg hname,
      List.nil_append]
    refine congrArg (Reading.read _) (funext fun contents => ?_)
    have hrun : Invocation.runProgram fuel name contents s = runFile fuel (fun _ => contents) name s := by
      cases contents <;>
        simp [Invocation.runProgram, Invocation.programText, runFile, hname, Except.mapError]
    rw [hrun]
    cases runFile fuel (fun _ => contents) name s <;> rfl
  | cons first names ih =>
    simp only [readFiles, Reading.bind, List.cons_append]
    refine congrArg (Reading.read _) (funext fun contents => ?_)
    cases runFile fuel (fun _ => contents) first s with
    | done v s => exact ih s
    | failed e s => rfl
    | exhausted => rfl

/-- The command line asks to run the program in a file. -/
structure RunsFile (words : List String) (i : Invocation) (name : String) : Prop where
  request : Request.read? words = some (.run i)
  inspect : i.inspect = false
  draw : i.draw = false
  file : i.file = some name
  notInput : name ≠ "-"

namespace Invocation

/-- The files of a run, in order. -/
def files (i : Invocation) (prelude : Option String) (name : String) : List String :=
  prelude.toList ++ i.libraries ++ [name]

/-- The session that a run starts in. -/
def start (i : Invocation) (prelude : Option String) : Session :=
  .fresh (i.setup prelude).environment

theorem start_printing (i : Invocation) (prelude : Option String) :
    (i.start prelude).printing "" = i.start prelude :=
  rfl

theorem start_printed (i : Invocation) (prelude : Option String) : (i.start prelude).printed = "" :=
  rfl

end Invocation

section Exits

variable {words : List String} {name : String}

theorem RunsFile.answering (h : RunsFile words i name) (fuel : Nat) (prelude : Option String) :
    answering words fuel prelude =
      (readFiles fuel (i.files prelude name) (i.start prelude)).bind fun o =>
        .done (Exit.ofOutcome o fun _ => "") := by
  simp only [FlatLisp.answering, h.request, Invocation.reading, h.inspect, h.draw, h.file]
  exact readFiles_bind_program h.notInput fuel _ _

theorem RunsFile.answer (h : RunsFile words i name) (fuel : Nat) (r : Surroundings) :
    answer words fuel r =
      Exit.ofOutcome ((readFiles fuel (i.files r.prelude name) (i.start r.prelude)).result r.texts)
        fun _ => "" := by
  rw [FlatLisp.answer, h.answering, Reading.result_bind]
  rfl

theorem RunsFile.sources (h : RunsFile words i name) (fuel : Nat) (r : Surroundings) :
    (FlatLisp.answering words fuel r.prelude).sources r.texts =
      (readFiles fuel (i.files r.prelude name) (i.start r.prelude)).sources r.texts := by
  rw [h.answering, Reading.sources_bind]
  exact List.append_nil _

/-- All files evaluate without error: the exit code is 0, and the output is what they print, in
order. -/
def Completes (r : Surroundings) (i : Invocation) (name : String) (exit : Exit)
    (read : List Source) : Prop :=
  ∃ texts s, EvaluateAll r.files (i.files r.prelude name) (i.start r.prelude) texts s ∧
    exit = ⟨0, String.join texts, ""⟩ ∧ read = (i.files r.prelude name).map .file

/-- One of the files is the first to fail: the exit code is 1, the error is reported, and the
output is what was printed up to the failure. No file behind it is read. -/
def Stops (r : Surroundings) (i : Invocation) (name : String) (exit : Exit)
    (read : List Source) : Prop :=
  ∃ before failing after texts s e own, i.files r.prelude name = before ++ failing :: after ∧
    EvaluateAll r.files before (i.start r.prelude) texts s ∧ Fails r.files failing s e own ∧
    exit = ⟨1, String.join texts ++ own, e.text ++ "\n"⟩ ∧ read = (before ++ [failing]).map .file

variable {exit exit' : Exit} {read read' : List Source}

/-- With enough fuel a run is over in which all files evaluate. -/
theorem Completes.answer (h : RunsFile words i name) (hrun : Completes r i name exit read) :
    ∃ enough, ∀ n, enough ≤ n →
      answer words n r = some exit ∧ (answering words n r.prelude).sources r.texts = read := by
  obtain ⟨texts, s, hall, rfl, rfl⟩ := hrun
  obtain ⟨enough, hread⟩ := hall.readFiles_append ""
  refine ⟨enough, fun n hn => ?_⟩
  obtain ⟨hresult, hsources⟩ := hread n hn []
  rw [i.start_printing, List.append_nil, String.empty_append] at hresult hsources
  rw [h.answer, h.sources, hresult, hsources]
  constructor
  · simp [readFiles, Reading.result, Exit.ofOutcome, Session.printing]
  · simp [readFiles, Reading.sources]

/-- With enough fuel a run is over in which a file fails. -/
theorem Stops.answer (h : RunsFile words i name) (hrun : Stops r i name exit read) :
    ∃ enough, ∀ n, enough ≤ n →
      answer words n r = some exit ∧ (answering words n r.prelude).sources r.texts = read := by
  obtain ⟨before, failing, after, texts, s, e, own, hnames, hbefore, hfails, rfl, rfl⟩ := hrun
  obtain ⟨enough, hread⟩ := hbefore.readFiles_append ""
  obtain ⟨s', enough', hprinted, hrun⟩ := (hfails.printing (String.join texts)).runFile
  refine ⟨max enough enough', fun n hn => ?_⟩
  obtain ⟨hresult, hsources⟩ := hread n (by omega) (failing :: after)
  rw [i.start_printing, String.empty_append] at hresult hsources
  rw [result_readFiles_cons, hrun n (by omega)] at hresult
  rw [sources_readFiles_cons, hrun n (by omega)] at hsources
  rw [h.answer, h.sources, hnames, hresult, hsources]
  constructor
  · simp [Exit.ofOutcome, Exit.failure, hprinted, Session.printing]
  · simp

/-- A run that is over completes or stops. -/
theorem exits_cases (h : RunsFile words i name) (hrun : Exits words r exit read) :
    Completes r i name exit read ∨ Stops r i name exit read := by
  obtain ⟨n, hexit, rfl⟩ := hrun
  obtain ⟨read, hread, hcomes⟩ := readFiles_comes r n (i.files r.prelude name) (i.start r.prelude)
  rw [h.answer] at hexit
  rw [h.sources, hread]
  generalize (readFiles n _ _).result r.texts = o at hexit hcomes
  cases hcomes with
  | done hall ht =>
    refine .inl ⟨_, _, hall, (Option.some.inj hexit).symm.trans ?_, rfl⟩
    rw [ht, String.append_empty, i.start_printed, String.empty_append]
  | failed hnames hbefore hfails ht =>
    refine .inr ⟨_, _, _, _, _, _, _, hnames, hbefore, hfails, ?_, rfl⟩
    refine (Option.some.inj hexit).symm.trans ?_
    rw [Exit.failure, ht, i.start_printed, String.empty_append]
  | exhausted hnames hbefore => exact absurd hexit (by simp [Exit.ofOutcome])

/-- A run that is over is over with more fuel too. -/
theorem Exits.eventually (h : RunsFile words i name) (hrun : Exits words r exit read) :
    ∃ enough, ∀ n, enough ≤ n →
      answer words n r = some exit ∧ (answering words n r.prelude).sources r.texts = read :=
  (exits_cases h hrun).elim (Completes.answer h) (Stops.answer h)

theorem Exits.unique (h : RunsFile words i name) (hrun : Exits words r exit read)
    (hrun' : Exits words r exit' read') : exit = exit' ∧ read = read' := by
  obtain ⟨enough, hn⟩ := hrun.eventually h
  obtain ⟨enough', hn'⟩ := hrun'.eventually h
  obtain ⟨hexit, hread⟩ := hn _ (Nat.le_max_left enough enough')
  obtain ⟨hexit', hread'⟩ := hn' _ (Nat.le_max_right enough enough')
  exact ⟨Option.some.inj (hexit.symm.trans hexit'), hread.symm.trans hread'⟩

/-- What the run does not read has no effect on it. -/
theorem Exits.of_sources {r' : Surroundings} (hprelude : r'.prelude = r.prelude)
    (hrun : Exits words r exit read) (h : ∀ source ∈ read, r'.texts source = r.texts source) :
    Exits words r' exit read := by
  obtain ⟨n, hexit, rfl⟩ := hrun
  obtain ⟨hresult, hsources⟩ := Reading.eq_of_sources h
  refine ⟨n, ?_, ?_⟩
  · rw [answer, hprelude, hresult]
    exact hexit
  · rw [hprelude, hsources]

/-- **A run stops at the first file that fails.** A run is over when all files have been
evaluated or when one has failed, and in one way only. Whatever the fuel, a file is read only
when all files before it have been evaluated, and what is not read has no effect. -/
theorem files_in_turn (h : RunsFile words i name) (r : Surroundings) :
    (∀ exit read, Exits words r exit read ↔
        Completes r i name exit read ∨ Stops r i name exit read) ∧
      (∀ exit read exit' read', Exits words r exit read → Exits words r exit' read' →
        exit = exit' ∧ read = read') ∧
      (∀ fuel, ∃ before after texts s, i.files r.prelude name = before ++ after ∧
        EvaluateAll r.files before (i.start r.prelude) texts s ∧
        (answering words fuel r.prelude).sources r.texts = (before ++ after.take 1).map .file) ∧
      ∀ r' : Surroundings, r'.prelude = r.prelude → ∀ exit read, Exits words r exit read →
        (∀ source ∈ read, r'.texts source = r.texts source) → Exits words r' exit read := by
  refine ⟨fun exit read => ⟨exits_cases h, ?_⟩, fun _ _ _ _ => Exits.unique h, fun fuel => ?_,
    fun r' hprelude exit read hrun => hrun.of_sources hprelude⟩
  · rintro (hrun | hrun)
    · obtain ⟨n, hn⟩ := hrun.answer h
      exact ⟨n, hn n le_rfl⟩
    · obtain ⟨n, hn⟩ := hrun.answer h
      exact ⟨n, hn n le_rfl⟩
  · obtain ⟨read, hread, hcomes⟩ :=
      readFiles_comes r fuel (i.files r.prelude name) (i.start r.prelude)
    obtain ⟨before, after, texts, s, hnames, hbefore, rfl⟩ := hcomes.evaluated
    exact ⟨before, after, texts, s, hnames, hbefore, (h.sources fuel r).trans hread⟩

end Exits

section Broken

/-- Two libraries, of which the second is broken, and a program. -/
def brokenWords : List String := ["--no-stdlib", "--lib", "one.dl", "--lib", "two.dl", "main.dl"]

def brokenFiles (program : Contents) : Surroundings where
  files name :=
    if name = "one.dl" then .ok "(prn)" else if name = "two.dl" then .ok ")" else program
  input := .ok ""
  prelude := none

variable (program : Contents)

/-- The first library prints an empty line. -/
theorem evaluates_first :
    Evaluates (brokenFiles program).files "one.dl" (.fresh .core) ⟨.core, "\n", 0⟩ := by
  have hforms : readForms "(prn)" = .ok [.apply [.symbol "prn"]] := by
    have hcut : Lexeme.cut 1 "(prn)".toList =
        .ok [(1, .leftParen), (1, .word "prn"), (1, .rightParen)] := by cbv
    rw [readForms, tokenize, hcut]
    rfl
  have hprn : Environment.core.find? "prn" = some (.builtin .print) := by
    simp [Environment.core, Environment.withBuiltins, Builtin.core, Environment.defineAll,
      Environment.find?_define, Builtin.name]
  have heval : Ends (fun fuel => evalForms fuel [.apply [.symbol "prn"]]
      ((Session.fresh .core).printing "")) (.done .nil ⟨.core, "\n", 0⟩) := by
    refine ⟨by simp, 4, ?_⟩
    simp only [evalForms, evalBody, eval]
    simp [Session.fresh, Session.printing, hprn, evalEach, Outcome.andThen, Outcome.ofExcept,
      Builtin.call, Builtin.operation, Operation.apply, Session.receive, Session.print, Session.chain,
      Yield.print, Value.ofList, Value.prepend, Value.joinedText]
  exact .intro rfl hforms heval

/-- The second one has a parenthesis too many. -/
theorem fails_second (s : Session) :
    Fails (brokenFiles program).files "two.dl" s (.parse (.strayClose 1)) "" := by
  have hforms : readForms ")" = .error (.parse (.strayClose 1)) := by
    have hcut : Lexeme.cut 1 ")".toList = .ok [(1, .rightParen)] := by cbv
    rw [readForms, tokenize, hcut]
    rfl
  exact .malformed rfl hforms

/-- What the first library prints stays, and the program is not read. -/
theorem files_in_turn_broken :
    RunsFile brokenWords ⟨["one.dl", "two.dl"], false, false, false, some "main.dl"⟩ "main.dl" ∧
      ∀ program, Exits brokenWords (brokenFiles program)
        ⟨1, "\n", "Parsing error: unexpected ')' on line 1\n"⟩ [.file "one.dl", .file "two.dl"] := by
  have h : RunsFile brokenWords ⟨["one.dl", "two.dl"], false, false, false, some "main.dl"⟩ "main.dl" :=
    ⟨by decide, rfl, rfl, rfl, by decide⟩
  refine ⟨h, fun program => ((files_in_turn h _).1 _ _).2 (.inr ?_)⟩
  exact ⟨["one.dl"], "two.dl", ["main.dl"], ["\n"], _, _, "", rfl,
    .cons (evaluates_first program) (.nil _), fails_second program _, by decide, rfl⟩

end Broken

end FlatLisp
