import FlatLisp.Proofs.NextForm

/-!
# Reading by a cursor

The reader on a machine moves a cursor through the tokens and reads a form by recursive descent:
one function for each kind of form, which reads the parts of the form and calls itself for those
that are forms. No function gets stuck: what it reads comes with the position behind it, further
on than where it started and not beyond the tokens (`Parsed`), and that is also why the descent
ends.

The cursor at position `p` stands for the tokens from there on. The reader that takes one token at
a time is somewhere inside of a form by then, and each function leads it to where it is behind
what the function reads, or ends with its error (`Tracks`).

* `readForm_tracks`: the descent follows the reader.
* `formAt_eq_readForm`: **a form is read by the cursor as it is read by tokens.**
* `parse_eq_readProgram`: **so is a program.**
-/

namespace FlatLisp

namespace Cursor

/-- What is read from position `p` on, and the position behind it. -/
structure Parsed (ts : List Token) (p : Nat) (α : Type) where
  value : α
  position : Nat
  progress : p < position
  bound : position ≤ ts.length

/-- The forms from position `p` on, up to the closing parenthesis behind them. -/
structure Body (ts : List Token) (p : Nat) where
  forms : List Form
  position : Nat
  reached : p ≤ position
  inside : position < ts.length
  closing : ts[position].kind = .rightParen

section Descent

variable (ts : List Token)

/-- Takes the closing parenthesis of a form. -/
def expectClose (c : Context) (p : Nat) : Except ParseError (Parsed ts p Unit) :=
  if hp : p < ts.length then
    if ts[p].kind = .rightParen then .ok ⟨(), p + 1, by omega, hp⟩ else .error (.tooMany c)
  else .error (.missingClose c)

/-- Takes a symbol. -/
def expectSymbol (c : Context) (p : Nat) : Except ParseError (Parsed ts p String) :=
  if hp : p < ts.length then
    match ts[p].kind with
    | .symbol n => .ok ⟨n, p + 1, by omega, hp⟩
    | _ => .error (.notSymbol c ts[p].source ts[p].line)
  else .error (.missingPart c)

/-- Takes the parenthesis that opens the parameters of a function. -/
def expectParameters (function : String) (p : Nat) : Except ParseError (Parsed ts p Unit) :=
  if hp : p < ts.length then
    if ts[p].kind = .leftParen then .ok ⟨(), p + 1, by omega, hp⟩
    else .error (.missingParameters function)
  else .error (.missingParameters function)

/-- Reads the parameters of a function, and the parenthesis that closes them. -/
def readParameters (p : Nat) : Except ParseError (Parsed ts p (List String)) :=
  if hp : p < ts.length then
    if ts[p].kind = .rightParen then .ok ⟨[], p + 1, by omega, hp⟩
    else do
      let ⟨param, q, _, _⟩ ← expectSymbol ts .parameter p
      let ⟨params, r, _, hr⟩ ← readParameters q
      .ok ⟨param :: params, r, by omega, hr⟩
  else .error .missingParameterClose
termination_by ts.length - p

mutual

/-- Reads the form at position `p`. -/
def readForm (p : Nat) (hp : p < ts.length) : Except ParseError (Parsed ts p Form) :=
  match ts[p].kind with
  | .leftParen =>
    match ts[p + 1]?.map Token.kind with
    | some (.keyword .assign) => readAssign p hp
    | some (.keyword .branch) => readBranch p hp
    | some (.keyword .whileLoop) => readWhileLoop p hp
    | some (.keyword .forLoop) => readForLoop p hp
    | some (.keyword .define) => readDefine p hp
    | _ => readApply p hp
  | .symbol n => .ok ⟨.symbol n, p + 1, by omega, hp⟩
  | .number x => .ok ⟨.literal (.number x), p + 1, by omega, hp⟩
  | .string s => .ok ⟨.literal (.string s), p + 1, by omega, hp⟩
  | .rightParen => .error (.strayClose ts[p].line)
  | .keyword _ => .error (.strayKeyword ts[p].source ts[p].line)
termination_by (ts.length - p, 1)

/-- Reads a form that must be there. -/
def readPart (k : Keyword) (p : Nat) : Except ParseError (Parsed ts p Form) :=
  if hp : p < ts.length then
    if ts[p].kind = .rightParen then .error (.tooFew (.form k)) else readForm p hp
  else .error (.missingPart (.form k))
termination_by (ts.length - p, 2)

/-- Reads forms up to the end of the form that they belong to. -/
def readBody (c : Context) (p : Nat) : Except ParseError (Body ts p) :=
  if hp : p < ts.length then
    if hclose : ts[p].kind = .rightParen then .ok ⟨[], p, by omega, hp, hclose⟩
    else do
      let ⟨f, q, _, _⟩ ← readForm p hp
      let ⟨fs, r, _, hr, hclose⟩ ← readBody c q
      .ok ⟨f :: fs, r, by omega, hr, hclose⟩
  else .error (.missingClose c)
termination_by (ts.length - p, 2)

def readApply (p : Nat) (_hp : p < ts.length) : Except ParseError (Parsed ts p Form) := do
  let ⟨items, q, _, _, _⟩ ← readBody .sequence (p + 1)
  let ⟨_, r, _, hr⟩ ← expectClose ts .sequence q
  .ok ⟨.apply items, r, by omega, hr⟩
termination_by (ts.length - p, 0)

def readAssign (p : Nat) (_hp : p < ts.length) : Except ParseError (Parsed ts p Form) := do
  let ⟨target, q₁, _, _⟩ ← expectSymbol ts .target (p + 2)
  let ⟨value, q₂, _, _⟩ ← readPart .assign q₁
  let ⟨_, r, _, hr⟩ ← expectClose ts (.form .assign) q₂
  .ok ⟨.assign target value, r, by omega, hr⟩
termination_by (ts.length - p, 0)

def readBranch (p : Nat) (_hp : p < ts.length) : Except ParseError (Parsed ts p Form) := do
  let ⟨test, q₁, _, _⟩ ← readPart .branch (p + 2)
  let ⟨yes, q₂, _, _⟩ ← readPart .branch q₁
  let ⟨no, q₃, _, _⟩ ← readPart .branch q₂
  let ⟨_, r, _, hr⟩ ← expectClose ts (.form .branch) q₃
  .ok ⟨.branch test yes no, r, by omega, hr⟩
termination_by (ts.length - p, 0)

def readWhileLoop (p : Nat) (_hp : p < ts.length) : Except ParseError (Parsed ts p Form) := do
  let ⟨test, q₁, _, _⟩ ← readPart .whileLoop (p + 2)
  let ⟨body, q₂, _, _, _⟩ ← readBody (.form .whileLoop) q₁
  let ⟨_, r, _, hr⟩ ← expectClose ts (.form .whileLoop) q₂
  .ok ⟨.whileLoop test body, r, by omega, hr⟩
termination_by (ts.length - p, 0)

def readForLoop (p : Nat) (_hp : p < ts.length) : Except ParseError (Parsed ts p Form) := do
  let ⟨start, q₁, _, _⟩ ← readPart .forLoop (p + 2)
  let ⟨test, q₂, _, _⟩ ← readPart .forLoop q₁
  let ⟨step, q₃, _, _⟩ ← readPart .forLoop q₂
  let ⟨body, q₄, _, _, _⟩ ← readBody (.form .forLoop) q₃
  let ⟨_, r, _, hr⟩ ← expectClose ts (.form .forLoop) q₄
  .ok ⟨.forLoop start test step body, r, by omega, hr⟩
termination_by (ts.length - p, 0)

def readDefine (p : Nat) (_hp : p < ts.length) : Except ParseError (Parsed ts p Form) := do
  let ⟨name, q₁, _, _⟩ ← expectSymbol ts .functionName (p + 2)
  let ⟨_, q₂, _, _⟩ ← expectParameters ts name q₁
  let ⟨params, q₃, _, _⟩ ← readParameters ts q₂
  let ⟨body, q₄, _, _, _⟩ ← readBody (.form .define) q₃
  let ⟨_, r, _, hr⟩ ← expectClose ts (.form .define) q₄
  .ok ⟨.define name params body, r, by omega, hr⟩
termination_by (ts.length - p, 0)

end

/-- Reads forms up to the end of the tokens. -/
def readProgram (p : Nat) : Except ParseError (List Form) :=
  if hp : p < ts.length then do
    let ⟨f, q, _, _⟩ ← readForm ts p hp
    let fs ← readProgram q
    .ok (f :: fs)
  else .ok []
termination_by ts.length - p

end Descent

/-! ## The descent follows the reader -/

/-- What the reader takes from state `r` on: the form that it has already, or the next one. -/
def answer (r : Reader) (ts : List Token) : Option (Except ParseError (Form × List Token)) :=
  match r.done with
  | f :: _ => some (.ok (f, ts))
  | [] => r.takeForm ts

/-- In state `r` in front of position `i` the reader gets to `next` of what is read, or it ends with
the same error. -/
def Tracks {α : Type} (ts : List Token) (r : Reader) (i : Nat) (m : Except ParseError α)
    (next : α → Reader × Nat) : Prop :=
  answer r (ts.drop i) = match m with
    | .ok a => answer (next a).1 (ts.drop (next a).2)
    | .error e => some (.error e)

/-- Behind a form that is read, it is handed to the slot that waits for it. -/
def handed {ts : List Token} {p : Nat} (waiting : List Slot) (a : Parsed ts p Form) :
    Reader × Nat :=
  (Reader.deliver a.value [] waiting, a.position)

section Tracks

variable {α β : Type} {ts : List Token} {r r' : Reader} {i : Nat} {m : Except ParseError α}
  {next : α → Reader × Nat} {next' : β → Reader × Nat} {e : ParseError} {focus : Focus}
  {waiting : List Slot} {c : Context}

theorem Tracks.pure (a : α) (h : next a = (r, i)) : Tracks ts r i (.ok a) next := by
  simp only [Tracks, h]

theorem Tracks.bind {go : α → Except ParseError β} (hm : Tracks ts r i m next)
    (hgo : ∀ a, Tracks ts (next a).1 (next a).2 (go a) next') : Tracks ts r i (m >>= go) next' := by
  cases m with
  | ok a => exact hm.trans (hgo a)
  | error e => exact hm

/-- The reader takes a token in front. -/
theorem Tracks.step (hi : i < ts.length) (hr : r.done = []) (h : r.step ts[i] = .ok r')
    (hm : Tracks ts r' (i + 1) m next) : Tracks ts r i m next := by
  have hanswer : answer r (ts.drop i) = answer r' (ts.drop (i + 1)) := by
    rw [answer, hr, List.drop_eq_getElem_cons hi]
    simp only [Reader.takeForm, h]
    rfl
  exact hanswer.trans hm

/-- The reader refuses a token. -/
theorem Tracks.refuse (hi : i < ts.length) (hr : r.done = []) (h : r.step ts[i] = .error e) :
    Tracks ts r i (.error e) next := by
  rw [Tracks, answer, hr, List.drop_eq_getElem_cons hi]
  simp only [Reader.takeForm, h]

/-- There is no token, and the reader lacks something. -/
theorem Tracks.missing (hi : ¬ i < ts.length) (hr : r.done = []) (h : r.finish = .error e) :
    Tracks ts r i (.error e) next := by
  rw [Tracks, answer, hr, List.drop_eq_nil_of_le (Nat.le_of_not_lt hi)]
  simp only [Reader.takeForm, h]

/-- Behind an opening parenthesis the keyword of a special form follows. -/
theorem Tracks.keyword {k : Keyword} (hk : ts[i]?.map Token.kind = some (.keyword k))
    (hm : Tracks ts ⟨[], k.focus, waiting⟩ (i + 1) m next) :
    Tracks ts ⟨[], .opened, waiting⟩ i m next := by
  obtain ⟨t, ht, hkind⟩ := Option.map_eq_some_iff.1 hk
  obtain ⟨hi, rfl⟩ := List.getElem?_eq_some_iff.1 ht
  exact hm.step hi rfl (by simp only [Reader.step, hkind])

/-- Where no keyword follows, an opening parenthesis starts an application. -/
theorem Tracks.application (hk : ∀ k, ts[i]?.map Token.kind ≠ some (.keyword k))
    (hm : Tracks ts ⟨[], .slot (.apply []), waiting⟩ i m next) :
    Tracks ts ⟨[], .opened, waiting⟩ i m next := by
  suffices h : answer ⟨[], .opened, waiting⟩ (ts.drop i) =
      answer ⟨[], .slot (.apply []), waiting⟩ (ts.drop i) from h.trans hm
  by_cases hi : i < ts.length
  · have hstep : Reader.step ⟨[], .opened, waiting⟩ ts[i] =
        Reader.step ⟨[], .slot (.apply []), waiting⟩ ts[i] := by
      simp only [List.getElem?_eq_getElem hi, Option.map_some, ne_eq, Option.some.injEq] at hk
      simp only [Reader.step]
    simp only [List.drop_eq_getElem_cons hi, answer, Reader.takeForm, hstep]
  · rw [List.drop_eq_nil_of_le (Nat.le_of_not_lt hi)]
    rfl

/-! ### Single tokens -/

/-- Behind the forms of a body comes its closing parenthesis. -/
theorem close_tracks {s : Slot} {f : Form} (hs : s.close? = some f) (hi : i < ts.length)
    (hclose : ts[i].kind = .rightParen) : Tracks ts ⟨[], .slot s, waiting⟩ i (expectClose ts c i)
      fun a => (Reader.deliver f [] waiting, a.position) := by
  rw [expectClose, dif_pos hi, if_pos hclose]
  exact .step hi rfl (by simp only [Reader.step, Reader.atSlot, hclose, hs, if_pos]) (.pure _ rfl)

/-- Where nothing but the end of the form may follow. -/
theorem end_tracks {f : Form} {k : Keyword}
    (hstep : ∀ t, Reader.step ⟨[], focus, waiting⟩ t = Reader.endAt f k [] waiting t)
    (hend : Reader.finish ⟨[], focus, waiting⟩ = .error (.missingClose (.form k))) :
    Tracks ts ⟨[], focus, waiting⟩ i (expectClose ts (.form k) i)
      fun a => (Reader.deliver f [] waiting, a.position) := by
  rw [expectClose]
  split
  · next hi =>
    split
    · next hclose =>
      exact .step hi rfl (by rw [hstep, Reader.endAt, if_pos hclose]) (.pure _ rfl)
    · next hclose => exact .refuse hi rfl (by rw [hstep, Reader.endAt, if_neg hclose])
  · next hi => exact .missing hi rfl hend

/-- Where a symbol must stand. -/
theorem symbol_tracks (go : String → Focus)
    (hstep : ∀ hi : i < ts.length, Reader.step ⟨[], focus, waiting⟩ ts[i] =
      (Reader.symbolAt c ts[i]).map fun n => ⟨[], go n, waiting⟩)
    (hend : ¬ i < ts.length → Reader.finish ⟨[], focus, waiting⟩ = .error (.missingPart c)) :
    Tracks ts ⟨[], focus, waiting⟩ i (expectSymbol ts c i)
      fun a => (⟨[], go a.value, waiting⟩, a.position) := by
  rw [expectSymbol]
  split
  · next hi =>
    have hstep := hstep hi
    unfold Reader.symbolAt at hstep
    split
    · next n hkind =>
      simp only [hkind] at hstep
      exact .step hi rfl hstep (.pure _ rfl)
    · next hkind =>
      split at hstep
      · next n hn => exact absurd hn (hkind n)
      · exact .refuse hi rfl hstep
  · next hi => exact .missing hi rfl (hend hi)

theorem parameters_tracks (name : String) (i : Nat) :
    Tracks ts ⟨[], .defineOpen name, waiting⟩ i (expectParameters ts name i)
      fun a => (⟨[], .defineParams name [], waiting⟩, a.position) := by
  rw [expectParameters]
  split
  · next hi =>
    split
    · next hopen => exact .step hi rfl (by simp only [Reader.step, hopen, if_pos]) (.pure _ rfl)
    · next hopen => exact .refuse hi rfl (by simp only [Reader.step, if_neg hopen])
  · next hi => exact .missing hi rfl rfl

/-- The parameters are read one by one. -/
theorem readParameters_tracks (name : String) (read : List String) (i : Nat) :
    Tracks ts ⟨[], .defineParams name read, waiting⟩ i (readParameters ts i) fun a =>
      (⟨[], .slot (.defineBody name (read.reverse ++ a.value) []), waiting⟩, a.position) := by
  fun_induction readParameters ts i generalizing read with
  | case1 i hi hclose =>
    have hstep : Reader.step ⟨[], .defineParams name read, waiting⟩ ts[i] =
        .ok ⟨[], .slot (.defineBody name read.reverse []), waiting⟩ := by
      simp only [Reader.step, hclose, if_pos]
    exact .step hi rfl hstep (.pure _ (by simp))
  | case2 i hi hclose ih =>
    have hparam : Tracks ts ⟨[], .defineParams name read, waiting⟩ i (expectSymbol ts .parameter i)
        fun a => (⟨[], .defineParams name (a.value :: read), waiting⟩, a.position) :=
      symbol_tracks (fun p => .defineParams name (p :: read))
        (fun _ => by simp only [Reader.step, if_neg hclose]) (fun hend => absurd hi hend)
    exact hparam.bind fun ⟨p, q, hq, _⟩ => (ih q hq ‹_› (p :: read)).bind fun _ => .pure _ (by simp)
  | case3 i hi => exact .missing hi rfl rfl

/-! ### Forms -/

/-- A slot that takes forms up to the end of its own one. -/
structure IsBody (body : List Form → Slot) (c : Context) (form : List Form → Form) : Prop where
  fill : ∀ fs f, (body fs).fill f = .slot (body (f :: fs))
  close : ∀ fs, (body fs).close? = some (form fs.reverse)
  context : ∀ fs, (body fs).context = c

theorem IsBody.close_reverse {body : List Form → Slot} {form : List Form → Form}
    (hbody : IsBody body c form) (fs : List Form) :
    (body (fs.reverse ++ [])).close? = some (form fs) := by
  simp [hbody.close]

end Tracks

section Forms

variable {ts : List Token}

mutual

/-- **The descent follows the reader**: a form is read, and handed to the slot that waits for it. -/
theorem readForm_tracks {waiting : List Slot} {r : Reader} (p : Nat) (hp : p < ts.length)
    (hr : r.done = []) (hstep : r.step ts[p] = Reader.begin [] waiting ts[p]) :
    Tracks ts r p (readForm ts p hp) (handed waiting) := by
  unfold Reader.begin at hstep
  rw [readForm]
  cases hkind : ts[p].kind with
  | leftParen =>
    simp only [hkind] at hstep ⊢
    refine .step hp hr hstep ?_
    split
    · next hk => exact .keyword hk (readAssign_tracks p hp)
    · next hk => exact .keyword hk (readBranch_tracks p hp)
    · next hk => exact .keyword hk (readWhileLoop_tracks p hp)
    · next hk => exact .keyword hk (readForLoop_tracks p hp)
    · next hk => exact .keyword hk (readDefine_tracks p hp)
    · next h₁ h₂ h₃ h₄ h₅ =>
      exact .application (fun k => by cases k <;> assumption) (readApply_tracks p hp)
  | rightParen | keyword =>
    simp only [hkind] at hstep ⊢
    exact .refuse hp hr hstep
  | symbol | number | string =>
    simp only [hkind] at hstep ⊢
    exact .step hp hr hstep (.pure _ rfl)
termination_by (ts.length - p, 1)

theorem readPart_tracks {waiting : List Slot} {s : Slot} {k : Keyword} (p : Nat)
    (hclose : s.close? = none) (hs : s.context = .form k) :
    Tracks ts ⟨[], .slot s, waiting⟩ p (readPart ts k p)
      fun a => (⟨[], s.fill a.value, waiting⟩, a.position) := by
  rw [readPart]
  split
  · next hp =>
    split
    · next hright =>
      refine .refuse hp rfl ?_
      simp only [Reader.step, Reader.atSlot, if_pos hright, hclose, hs]
    · next hright =>
      have hstep : Reader.step ⟨[], .slot s, waiting⟩ ts[p] =
          Reader.begin [] (s :: waiting) ts[p] := by
        simp only [Reader.step, Reader.atSlot, if_neg hright]
      exact readForm_tracks p hp rfl hstep
  · next hp => exact .missing hp rfl (by simp [Reader.finish, Slot.atEnd, hclose, hs])
termination_by (ts.length - p, 2)

theorem readBody_tracks {waiting : List Slot} {body : List Form → Slot} {c : Context}
    {form : List Form → Form} (hbody : IsBody body c form) (read : List Form) (p : Nat) :
    Tracks ts ⟨[], .slot (body read), waiting⟩ p (readBody ts c p)
      fun b => (⟨[], .slot (body (b.forms.reverse ++ read)), waiting⟩, b.position) := by
  rw [readBody]
  split
  · next hp =>
    split
    · exact .pure _ rfl
    · next hright =>
      have hstep : Reader.step ⟨[], .slot (body read), waiting⟩ ts[p] =
          Reader.begin [] (body read :: waiting) ts[p] := by
        simp only [Reader.step, Reader.atSlot, if_neg hright]
      refine (readForm_tracks p hp rfl hstep).bind fun ⟨f, q, hq, _⟩ => ?_
      simp only [handed, Reader.deliver, hbody.fill]
      exact (readBody_tracks hbody (f :: read) q).bind fun _ => .pure _ (by simp)
  · next hp =>
    exact .missing hp rfl (by simp [Reader.finish, Slot.atEnd, hbody.close, hbody.context])
termination_by (ts.length - p, 2)

theorem readApply_tracks {waiting : List Slot} (p : Nat) (hp : p < ts.length) :
    Tracks ts ⟨[], .slot (.apply []), waiting⟩ (p + 1) (readApply ts p hp) (handed waiting) := by
  rw [readApply]
  have hbody : IsBody .apply .sequence .apply := ⟨fun _ _ => rfl, fun _ => rfl, fun _ => rfl⟩
  refine (readBody_tracks hbody [] (p + 1)).bind fun ⟨items, q, _, hq, hclose⟩ => ?_
  exact (close_tracks (hbody.close_reverse _) hq hclose).bind fun ⟨_, _, _, _⟩ => .pure _ rfl
termination_by (ts.length - p, 0)

theorem readAssign_tracks {waiting : List Slot} (p : Nat) (hp : p < ts.length) :
    Tracks ts ⟨[], .assignTarget, waiting⟩ (p + 2) (readAssign ts p hp) (handed waiting) := by
  rw [readAssign]
  have htarget : Tracks ts ⟨[], .assignTarget, waiting⟩ (p + 2) (expectSymbol ts .target (p + 2))
      fun a => (⟨[], .slot (.assignValue a.value), waiting⟩, a.position) :=
    symbol_tracks (fun n => .slot (.assignValue n)) (fun _ => rfl) (fun _ => rfl)
  refine htarget.bind fun ⟨target, q₁, _, _⟩ => ?_
  refine (readPart_tracks q₁ rfl rfl).bind fun ⟨value, q₂, _, _⟩ => ?_
  exact (end_tracks (fun _ => rfl) rfl).bind fun ⟨_, _, _, _⟩ => .pure _ rfl
termination_by (ts.length - p, 0)

theorem readBranch_tracks {waiting : List Slot} (p : Nat) (hp : p < ts.length) :
    Tracks ts ⟨[], .slot .branchTest, waiting⟩ (p + 2) (readBranch ts p hp) (handed waiting) := by
  rw [readBranch]
  refine (readPart_tracks (p + 2) rfl rfl).bind fun ⟨test, q₁, _, _⟩ => ?_
  refine (readPart_tracks q₁ rfl rfl).bind fun ⟨yes, q₂, _, _⟩ => ?_
  refine (readPart_tracks q₂ rfl rfl).bind fun ⟨no, q₃, _, _⟩ => ?_
  exact (end_tracks (fun _ => rfl) rfl).bind fun ⟨_, _, _, _⟩ => .pure _ rfl
termination_by (ts.length - p, 0)

theorem readWhileLoop_tracks {waiting : List Slot} (p : Nat) (hp : p < ts.length) :
    Tracks ts ⟨[], .slot .whileTest, waiting⟩ (p + 2) (readWhileLoop ts p hp) (handed waiting) := by
  rw [readWhileLoop]
  refine (readPart_tracks (p + 2) rfl rfl).bind fun ⟨test, q₁, _, _⟩ => ?_
  have hbody : IsBody (.whileBody test) (.form .whileLoop) (.whileLoop test) :=
    ⟨fun _ _ => rfl, fun _ => rfl, fun _ => rfl⟩
  refine (readBody_tracks hbody [] q₁).bind fun ⟨body, q₂, _, hq, hclose⟩ => ?_
  exact (close_tracks (hbody.close_reverse _) hq hclose).bind fun ⟨_, _, _, _⟩ => .pure _ rfl
termination_by (ts.length - p, 0)

theorem readForLoop_tracks {waiting : List Slot} (p : Nat) (hp : p < ts.length) :
    Tracks ts ⟨[], .slot .forStart, waiting⟩ (p + 2) (readForLoop ts p hp) (handed waiting) := by
  rw [readForLoop]
  refine (readPart_tracks (p + 2) rfl rfl).bind fun ⟨start, q₁, _, _⟩ => ?_
  refine (readPart_tracks q₁ rfl rfl).bind fun ⟨test, q₂, _, _⟩ => ?_
  refine (readPart_tracks q₂ rfl rfl).bind fun ⟨step, q₃, _, _⟩ => ?_
  have hbody : IsBody (.forBody start test step) (.form .forLoop) (.forLoop start test step) :=
    ⟨fun _ _ => rfl, fun _ => rfl, fun _ => rfl⟩
  refine (readBody_tracks hbody [] q₃).bind fun ⟨body, q₄, _, hq, hclose⟩ => ?_
  exact (close_tracks (hbody.close_reverse _) hq hclose).bind fun ⟨_, _, _, _⟩ => .pure _ rfl
termination_by (ts.length - p, 0)

theorem readDefine_tracks {waiting : List Slot} (p : Nat) (hp : p < ts.length) :
    Tracks ts ⟨[], .defineName, waiting⟩ (p + 2) (readDefine ts p hp) (handed waiting) := by
  rw [readDefine]
  have hname : Tracks ts ⟨[], .defineName, waiting⟩ (p + 2) (expectSymbol ts .functionName (p + 2))
      fun a => (⟨[], .defineOpen a.value, waiting⟩, a.position) :=
    symbol_tracks .defineOpen (fun _ => rfl) (fun _ => rfl)
  refine hname.bind fun ⟨name, q₁, _, _⟩ => ?_
  refine (parameters_tracks name q₁).bind fun ⟨_, q₂, _, _⟩ => ?_
  refine (readParameters_tracks name [] q₂).bind fun ⟨params, q₃, _, _⟩ => ?_
  have hbody : IsBody (.defineBody name params) (.form .define) (.define name params) :=
    ⟨fun _ _ => rfl, fun _ => rfl, fun _ => rfl⟩
  refine (readBody_tracks hbody [] q₃).bind fun ⟨body, q₄, _, hq, hclose⟩ => ?_
  exact (close_tracks (hbody.close_reverse _) hq hclose).bind fun ⟨_, _, _, _⟩ => .pure _ rfl
termination_by (ts.length - p, 0)

end

end Forms

/-! ## The same forms -/

variable {ts : List Token} {p : Nat}

/-- **A form is read by the cursor as it is read by tokens**, up to the same position. -/
theorem formAt_eq_readForm (hp : p < ts.length) :
    formAt ts p = some ((readForm ts p hp).map fun a => (a.value, a.position)) := by
  have htracks : Tracks ts .start p (readForm ts p hp) (handed []) := readForm_tracks p hp rfl rfl
  change (answer .start (ts.drop p)).map _ = _
  rw [htracks]
  cases h : readForm ts p hp with
  | error e => rfl
  | ok a =>
    have hback : ts.length - (ts.length - a.position) = a.position := by
      have := a.bound
      omega
    simp [handed, Reader.deliver, answer, Except.map, hback]

theorem readProgram_eq (p : Nat) : readProgram ts p = parse (ts.drop p) := by
  fun_induction readProgram ts p with
  | case1 p hp ih =>
    rw [parse_drop (formAt_eq_readForm hp)]
    cases readForm ts p hp with
    | error e => rfl
    | ok a =>
      have hrest := ih a.position a.progress a.bound
      change (readProgram ts a.position).bind (fun fs => .ok (a.value :: fs)) =
        (parse (ts.drop a.position)).map (a.value :: ·)
      rw [hrest]
      cases parse (ts.drop a.position) <;> rfl
  | case2 p hp => rw [List.drop_eq_nil_of_le (Nat.le_of_not_lt hp)]; rfl

/-- **A program is read by the cursor as it is read by tokens.** -/
theorem parse_eq_readProgram (ts : List Token) : parse ts = readProgram ts 0 :=
  (readProgram_eq 0).symm

end Cursor

end FlatLisp
