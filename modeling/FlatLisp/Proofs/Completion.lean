import FlatLisp.Proofs.Grammar

/-!
# Final errors and missing input

The reader goes from token to token and never takes one back. So a refused token is refused
whatever stands behind it. On the other hand no state of the reader is a dead end: every
unfinished form can be finished (`Reader.finishes`), then the form that waits for it, and so on
outward (`Reader.exists_completion`).

* `Reader.refused_of_run_error`: where a run fails, with the state in front of that token.
* `completable_of_run`: **tokens that are all taken begin a program.**
* `error_final_or_missing`: an error is final, or it says what is missing at the end.
-/

namespace FlatLisp

namespace Reader

variable {r r' : Reader} {ts : List Token} {e : ParseError} {focus focus' : Focus}

/-! ## Refused tokens -/

/-- A run fails at a token, with the reason that the state in front of it gives. -/
theorem refused_of_run_error (h : r.run ts = .error e) :
    ∃ before t behind r', ts = before ++ t :: behind ∧ r.run before = .ok r' ∧
      r'.step t = .error e := by
  induction ts generalizing r with
  | nil => exact absurd h (by simp [run])
  | cons t ts ih =>
    simp only [run] at h
    split at h
    · next r₁ hr =>
      obtain ⟨before, u, behind, r', rfl, hrun, hstep⟩ := ih h
      exact ⟨t :: before, u, behind, r', rfl, by simp only [run, hr, hrun], hstep⟩
    · next e' hr =>
      obtain rfl : e' = e := by simpa using h
      exact ⟨[], t, ts, r, rfl, rfl, hr⟩

/-- What stands behind a refused token does not matter. -/
theorem run_refused {before : List Token} {t : Token} (hrun : r.run before = .ok r')
    (hstep : r'.step t = .error e) (behind : List Token) :
    r.run (before ++ t :: behind) = .error e := by
  rw [run_append hrun]
  simp only [run, hstep]

/-! ## Unfinished forms can be finished -/

/-- Some tokens finish the form that the reader is inside of. -/
def Finishes (focus : Focus) : Prop :=
  ∀ done below, ∃ ks f, Reads ⟨done, focus, below⟩ ks (deliver f done below)

theorem Finishes.of_reads (ks : List TokenKind) (h : Finishes focus')
    (hks : ∀ done below, Reads ⟨done, focus, below⟩ ks ⟨done, focus', below⟩) : Finishes focus := by
  intro done below
  obtain ⟨ls, f, hf⟩ := h done below
  exact ⟨ks ++ ls, f, (hks done below).trans hf⟩

/-- A slot that lacks a part takes any symbol for it. -/
theorem Finishes.of_fill {s : Slot} (h : Finishes (s.fill (.symbol "x"))) : Finishes (.slot s) :=
  h.of_reads _ fun done below => reads_form (awaits_slot done s below) (.symbol "x") trivial

theorem finishes_close {s : Slot} {f : Form} (h : s.close? = some f) : Finishes (.slot s) :=
  fun _ _ => ⟨[.rightParen], f, .one fun t ht => by simp [step, atSlot, ht, h]⟩

theorem finishes_end (f : Form) (k : Keyword)
    (h : ∀ done below t, step ⟨done, focus, below⟩ t = endAt f k done below t) : Finishes focus :=
  fun done below => ⟨_, f, reads_end f k (h done below)⟩

theorem finishes_slot (s : Slot) : Finishes (.slot s) := by
  have hassign : ∀ target value, Finishes (.assignEnd target value) := fun target value =>
    finishes_end (.assign target value) .assign fun _ _ _ => rfl
  have hbranch : ∀ test yes no, Finishes (.branchEnd test yes no) := fun test yes no =>
    finishes_end (.branch test yes no) .branch fun _ _ _ => rfl
  -- a symbol for each part that is lacking, then the end
  cases s with
  | apply items => exact finishes_close rfl
  | assignValue target => exact .of_fill (hassign _ _)
  | branchTest => exact .of_fill (.of_fill (.of_fill (hbranch _ _ _)))
  | branchYes test => exact .of_fill (.of_fill (hbranch _ _ _))
  | branchNo test yes => exact .of_fill (hbranch _ _ _)
  | whileTest => exact .of_fill (finishes_close rfl)
  | whileBody test body => exact finishes_close rfl
  | forStart => exact .of_fill (.of_fill (.of_fill (finishes_close rfl)))
  | forTest start => exact .of_fill (.of_fill (finishes_close rfl))
  | forStep start test => exact .of_fill (finishes_close rfl)
  | forBody start test step body => exact finishes_close rfl
  | defineBody name params body => exact finishes_close rfl

/-- **Every form that the reader is inside of can be finished.** -/
theorem finishes (h : focus ≠ .ground) : Finishes focus := by
  have hparams : ∀ name params, Finishes (.defineParams name params) := fun name params =>
    (finishes_slot (.defineBody name params.reverse [])).of_reads [.rightParen] fun _ _ =>
      .one fun t ht => by simp [step, ht]
  have hopen : ∀ name, Finishes (.defineOpen name) := fun name =>
    (hparams name []).of_reads [.leftParen] fun _ _ => .one fun t ht => by simp [step, ht]
  cases focus with
  | ground => exact absurd rfl h
  | opened =>
    exact fun _ _ =>
      ⟨[.rightParen], .apply [], .one fun t ht => by simp [step, atSlot, ht, Slot.close?]⟩
  | slot s => exact finishes_slot s
  | assignTarget =>
    exact (finishes_slot (.assignValue "x")).of_reads [.symbol "x"] fun done below =>
      reads_symbol (c := .target) (fun n => ⟨done, .slot (.assignValue n), below⟩) fun _ _ => rfl
  | assignEnd target value => exact finishes_end (.assign target value) .assign fun _ _ _ => rfl
  | branchEnd test yes no => exact finishes_end (.branch test yes no) .branch fun _ _ _ => rfl
  | defineName =>
    exact (hopen "x").of_reads [.symbol "x"] fun done below =>
      reads_symbol (c := .functionName) (fun n => ⟨done, .defineOpen n, below⟩) fun _ _ => rfl
  | defineOpen name => exact hopen name
  | defineParams name params => exact hparams name params

/-- **From every state some tokens lead back between the forms of the program.** -/
theorem exists_completion (hr : r.Settled) : ∃ ks done, r.Reads ks ⟨done, .ground, []⟩ := by
  obtain ⟨done, focus, below⟩ := r
  -- from the inside outward: a finished form is handed to the next slot, which is finished then
  induction below generalizing focus with
  | nil =>
    by_cases hg : focus = .ground
    · exact ⟨[], done, fun ts hts => by rw [List.map_eq_nil_iff.1 hts, hg]; rfl⟩
    · obtain ⟨ks, f, hf⟩ := finishes hg done []
      exact ⟨ks, f :: done, hf⟩
  | cons s below ih =>
    have hg : focus ≠ .ground := fun hg => absurd (hr hg) (by simp)
    obtain ⟨ks, f, hf⟩ := finishes hg done (s :: below)
    have hfill : s.fill f ≠ .ground := by cases s <;> simp [Slot.fill]
    obtain ⟨ls, done', hls⟩ := ih (s.fill f) fun h => absurd h hfill
    exact ⟨ks ++ ls, done', hf.trans hls⟩

end Reader

/-! ## Errors -/

/-- The tokens begin a program. -/
def Completable (ts : List Token) : Prop := ∃ us fs, parse (ts ++ us) = .ok fs

/-- The reader takes all tokens, and `e` says what is missing at their end. -/
def UsedUp (ts : List Token) (e : ParseError) : Prop :=
  ∃ r, Reader.start.run ts = .ok r ∧ r.finish = .error e

variable {ts : List Token} {e : ParseError}

/-- **Tokens that are all taken begin a program.** -/
theorem completable_of_run {r : Reader} (h : Reader.start.run ts = .ok r) : Completable ts := by
  have hr : r.Settled := Reader.settled_run (fun _ => rfl) h
  obtain ⟨ks, done, hks⟩ := Reader.exists_completion hr
  set us : List Token := ks.map fun k => ⟨k, "", 0⟩
  have hus : r.run us = .ok ⟨done, .ground, []⟩ := hks us (by simp [us, Function.comp_def])
  refine ⟨us, done.reverse, ?_⟩
  simp only [parse, Reader.run_append h, hus, Reader.finish]

/-- An error comes from a refused token or from the end. -/
theorem parse_error_cases (h : parse ts = .error e) :
    Reader.start.run ts = .error e ∨ UsedUp ts e := by
  unfold parse at h
  split at h
  · next r hr => exact .inr ⟨r, hr, h⟩
  · next e' hr =>
    obtain rfl : e' = e := by simpa using h
    exact .inl hr

/-- A refused token is refused whatever stands behind it, and it is the first one with which no
program goes on. -/
theorem final_of_refused (h : Reader.start.run ts = .error e) :
    (∀ us, parse (ts ++ us) = .error e) ∧
      ∃ before t behind, ts = before ++ t :: behind ∧ Completable before ∧
        ∀ us, parse (before ++ t :: us) = .error e := by
  obtain ⟨before, t, behind, r, rfl, hrun, hstep⟩ := Reader.refused_of_run_error h
  have hfinal : ∀ us, parse (before ++ t :: us) = .error e := fun us => by
    simp only [parse, Reader.run_refused hrun hstep us]
  exact ⟨fun us => by simpa using hfinal (behind ++ us), before, t, behind, rfl,
    completable_of_run hrun, hfinal⟩

/-- **An error is final, or something is missing at the end.** It is missing exactly when the
reader has taken all tokens; then they begin a program. Otherwise the error stays the same
whatever follows, and it is found at the first token with which no program goes on. The refused
beginnings of a program are of the other kind. -/
theorem error_final_or_missing (h : parse ts = .error e) :
    ((∀ us, parse (ts ++ us) = .error e) ∨ Completable ts) ∧
      (Completable ts ↔ UsedUp ts e) ∧
      (¬ Completable ts → ∃ before t behind, ts = before ++ t :: behind ∧ Completable before ∧
        ∀ us, parse (before ++ t :: us) = .error e) ∧
      ∀ us fs, parse (ts ++ us) = .ok fs → Completable ts ∧ UsedUp ts e := by
  rcases parse_error_cases h with hrefused | hend
  · obtain ⟨hfinal, hfirst⟩ := final_of_refused hrefused
    have hnot : ∀ us fs, parse (ts ++ us) ≠ .ok fs := fun us fs hok => by
      rw [hfinal us] at hok
      exact absurd hok (by simp)
    have hnever : ¬ Completable ts := fun ⟨us, fs, hok⟩ => hnot us fs hok
    have htaken : ¬ UsedUp ts e := fun ⟨r, hr, _⟩ => absurd (hr.symm.trans hrefused) (by simp)
    exact ⟨.inl hfinal, ⟨fun hc => absurd hc hnever, fun hu => absurd hu htaken⟩,
      fun _ => hfirst, fun us fs hok => absurd hok (hnot us fs)⟩
  · obtain ⟨r, hr, -⟩ := id hend
    have hc := completable_of_run hr
    exact ⟨.inr hc, ⟨fun _ => hend, fun _ => hc⟩, fun hn => absurd hc hn, fun _ _ _ => ⟨hc, hend⟩⟩

/-- The same error, once at the end and once at a token that no parameter list starts with. -/
theorem error_final_or_missing_define :
    parse [⟨.leftParen, "(", 1⟩, ⟨.keyword .define, "defn", 1⟩, ⟨.symbol "f", "f", 1⟩] =
        .error (.missingParameters "f") ∧
      Completable [⟨.leftParen, "(", 1⟩, ⟨.keyword .define, "defn", 1⟩, ⟨.symbol "f", "f", 1⟩] ∧
      ∀ us, parse ([⟨.leftParen, "(", 1⟩, ⟨.keyword .define, "defn", 1⟩, ⟨.symbol "f", "f", 1⟩,
        ⟨.rightParen, ")", 1⟩] ++ us) = .error (.missingParameters "f") := by
  have hmissing : parse [⟨.leftParen, "(", 1⟩, ⟨.keyword .define, "defn", 1⟩,
      ⟨.symbol "f", "f", 1⟩] = .error (.missingParameters "f") := rfl
  have hfinal : parse [⟨.leftParen, "(", 1⟩, ⟨.keyword .define, "defn", 1⟩, ⟨.symbol "f", "f", 1⟩,
      ⟨.rightParen, ")", 1⟩] = .error (.missingParameters "f") := rfl
  have hend : UsedUp [⟨.leftParen, "(", 1⟩, ⟨.keyword .define, "defn", 1⟩, ⟨.symbol "f", "f", 1⟩]
      (.missingParameters "f") := ⟨_, rfl, rfl⟩
  refine ⟨hmissing, (error_final_or_missing hmissing).2.1.2 hend, fun us => ?_⟩
  rcases (error_final_or_missing hfinal).1 with hall | hc
  · exact hall us
  · obtain ⟨r, hr, -⟩ := (error_final_or_missing hfinal).2.1.1 hc
    exact absurd hr (by simp [Reader.run, Reader.step, Reader.start, Reader.begin, Keyword.focus,
      Reader.symbolAt, Except.map])

end FlatLisp
