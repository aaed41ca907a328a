import FlatLisp.Proofs.Concatenation
import FlatLisp.Proofs.Depth

/-!
# The next form

`formAt ts p` reads one form at position `p` of the tokens `ts`: the form and the position behind
it, or the reason why there is none. The tokens of a form are not the beginning of those of
another one (`Form.flat_prefix`), so the form ends where its own tokens end, whatever follows.

* `Reader.takeForm_eq_ok_iff`: **a form is taken exactly where its tokens stand.**
* `parse_eq_takeForm`: a program is read by one form after the other.
* `formAt_local`: **reading a form makes progress, takes balanced tokens, and looks at no others.**
-/

namespace FlatLisp

/-! ## Taking one form -/

/-- Takes tokens until the program has a form: that form, and the tokens behind it. There is
nothing to take without a token in front. -/
def Reader.takeForm (r : Reader) : List Token → Option (Except ParseError (Form × List Token))
  | [] =>
    match r.finish with
    | .ok _ => none
    | .error e => some (.error e)
  | t :: ts =>
    match r.step t with
    | .error e => some (.error e)
    | .ok r' =>
      match r'.done with
      | f :: _ => some (.ok (f, ts))
      | [] => r'.takeForm ts

/-- The form that is read from position `p`, and the position behind it. -/
def formAt (ts : List Token) (p : Nat) : Option (Except ParseError (Form × Nat)) :=
  (Reader.start.takeForm (ts.drop p)).map (·.map fun (f, rest) => (f, ts.length - rest.length))

theorem Form.flat_ne_nil (f : Form) : f.flat ≠ [] := by
  obtain ⟨k, ks, hk, -⟩ := f.flat_head
  simp [hk]

/-- The tokens of a form are not the beginning of those of another one. -/
theorem Form.flat_prefix {f g : Form} {ks : List TokenKind} (hf : f.Textual) (hg : g.Textual)
    (h : f.flat = g.flat ++ ks) : f = g ∧ ks = [] := by
  have hks : ks = [] := by
    by_contra hne
    have hpos := Form.depth_pos h g.flat_ne_nil hne
    have htotal := g.shape.balanced.total
    omega
  subst hks
  have hone : Form.flatAll [f] = Form.flatAll [g] := by simpa [Form.flatAll] using h
  exact ⟨List.singleton_inj.1 (Form.flatAll_inj ⟨hf, trivial⟩ ⟨hg, trivial⟩ hone), rfl⟩

namespace Reader

variable {r r' : Reader} {t : Token} {ts used rest : List Token} {f : Form} {e : ParseError}

/-- The reader is inside of the program's first form. -/
structure Inside (r : Reader) : Prop where
  first : r.done = []
  within : r.focus ≠ .ground

/-- A step in the first form ends it or stays inside of it. -/
theorem inside_step (hr : r.done = []) (h : r.step t = .ok r') :
    (∃ f, r' = ⟨[f], .ground, []⟩) ∨ r'.Inside := by
  cases after_step h with
  | delivered f waiting _ =>
    cases waiting with
    | nil => exact .inl ⟨f, by rw [hr]; rfl⟩
    | cons s below => exact .inr ⟨hr, by cases s <;> simp [deliver, Slot.fill]⟩
  | inside focus below hf _ => exact .inr ⟨hr, hf⟩

theorem takeForm_cons_done (h : r.step t = .ok ⟨[f], .ground, []⟩) :
    r.takeForm (t :: ts) = some (.ok (f, ts)) := by
  simp only [takeForm, h]

theorem takeForm_cons_inside (h : r.step t = .ok r') (hr : r'.Inside) :
    r.takeForm (t :: ts) = r'.takeForm ts := by
  simp only [takeForm, h, hr.first]

theorem takeForm_cons_error (h : r.step t = .error e) :
    r.takeForm (t :: ts) = some (.error e) := by
  simp only [takeForm, h]

/-- Inside of a form the end of the tokens is an error. -/
theorem Inside.finish (hr : r.Inside) : ∃ e, r.finish = .error e := by
  obtain ⟨done, focus, below⟩ := r
  cases focus with
  | ground => exact absurd rfl hr.within
  | _ => exact ⟨_, rfl⟩

theorem Inside.takeForm_ne_none (hr : r.Inside) (ts : List Token) : r.takeForm ts ≠ none := by
  induction ts generalizing r with
  | nil =>
    obtain ⟨e, he⟩ := hr.finish
    simp [takeForm, he]
  | cons t ts ih =>
    cases h : r.step t with
    | error e => simp [takeForm_cons_error h]
    | ok r₁ =>
      rcases inside_step hr.first h with ⟨f, rfl⟩ | hin
      · simp [takeForm_cons_done h]
      · rw [takeForm_cons_inside h hin]
        exact ih hin

/-- **In front of a token there is a form to take**, or an error. -/
theorem takeForm_start_eq_none_iff : start.takeForm ts = none ↔ ts = [] := by
  constructor
  · intro hnone
    cases ts with
    | nil => rfl
    | cons t ts =>
      cases h : start.step t with
      | error e => simp [takeForm_cons_error h] at hnone
      | ok r₁ =>
        rcases inside_step rfl h with ⟨f, rfl⟩ | hin
        · simp [takeForm_cons_done h] at hnone
        · rw [takeForm_cons_inside h hin] at hnone
          exact absurd hnone (hin.takeForm_ne_none ts)
  · rintro rfl
    rfl

/-- A form that is taken is what the reader has read at its last token. -/
theorem run_of_takeForm (hr : r.done = []) (h : r.takeForm ts = some (.ok (f, rest))) :
    ∃ used, ts = used ++ rest ∧ r.run used = .ok ⟨[f], .ground, []⟩ := by
  induction ts generalizing r with
  | nil =>
    simp only [takeForm] at h
    split at h <;> simp at h
  | cons t ts ih =>
    cases hs : r.step t with
    | error e => simp [takeForm_cons_error hs] at h
    | ok r₁ =>
      rcases inside_step hr hs with ⟨g, rfl⟩ | hin
      · rw [takeForm_cons_done hs] at h
        obtain ⟨rfl, rfl⟩ : g = f ∧ ts = rest := by simpa using h
        exact ⟨[t], rfl, by simp only [run, hs]⟩
      · rw [takeForm_cons_inside hs hin] at h
        obtain ⟨used, rfl, hrun⟩ := ih hin.first h
        exact ⟨t :: used, rfl, by simp only [run, hs, hrun]⟩

/-- Tokens that lead to one form of the program are those that are taken. -/
theorem takeForm_of_run (hr : r.done = []) (ht : r.Textual)
    (h : r.run used = .ok ⟨[f], .ground, []⟩) (rest : List Token) : r.takeForm (used ++ rest) = some (.ok (f, rest)) := by
  induction used generalizing r with
  | nil =>
    simp only [run, Except.ok.injEq] at h
    simp [h] at hr
  | cons t used ih =>
    cases hs : r.step t with
    | error e => simp [run, hs] at h
    | ok r₁ =>
      simp only [run, hs] at h
      have ht₁ := textual_step ht hs
      rcases inside_step hr hs with ⟨g, rfl⟩ | hin
      · -- a form has ended, and `f` has its tokens and the rest of `used`
        have hflat : f.flat = g.flat ++ used.map Token.kind := by
          simpa [flat, flatBelow, Focus.flat, Form.flatAll] using flat_run h
        have hf : f.Textual := (textual_run ht₁ h).done f List.mem_cons_self
        obtain ⟨rfl, hused⟩ := Form.flat_prefix hf (ht₁.done g List.mem_cons_self) hflat
        rw [List.map_eq_nil_iff.1 hused]
        exact takeForm_cons_done hs
      · rw [List.cons_append, takeForm_cons_inside hs hin]
        exact ih hin.first ht₁ h

/-- **A form is taken exactly where its tokens stand**, if the reader makes it at all. -/
theorem takeForm_eq_ok_iff : start.takeForm ts = some (.ok (f, rest)) ↔
    f.Textual ∧ ∃ used, ts = used ++ rest ∧ used.map Token.kind = f.flat := by
  constructor
  · intro h
    obtain ⟨used, hts, hrun⟩ := run_of_takeForm rfl h
    have hflat := flat_run hrun
    refine ⟨(textual_run textual_start hrun).done f List.mem_cons_self, used, hts, ?_⟩
    simpa [flat, flatBelow, Focus.flat, Form.flatAll, start] using hflat.symm
  · rintro ⟨hf, used, rfl, hused⟩
    have hrun : start.run used = .ok ⟨[f], .ground, []⟩ :=
      reads_form (awaits_ground []) f hf used hused
    exact takeForm_of_run rfl textual_start hrun rest

/-- Where no form is taken, the reader fails, at a token or at the end. -/
theorem run_of_takeForm_error (hr : r.done = []) (h : r.takeForm ts = some (.error e)) :
    r.run ts = .error e ∨ ∃ r', r.run ts = .ok r' ∧ r'.finish = .error e := by
  induction ts generalizing r with
  | nil =>
    simp only [takeForm] at h
    split at h
    · simp at h
    · next e' he =>
      obtain rfl : e' = e := by simpa using h
      exact .inr ⟨r, rfl, he⟩
  | cons t ts ih =>
    cases hs : r.step t with
    | error e' =>
      obtain rfl : e' = e := by simpa [takeForm_cons_error hs] using h
      exact .inl (by simp only [run, hs])
    | ok r₁ =>
      simp only [run, hs]
      rcases inside_step hr hs with ⟨g, rfl⟩ | hin
      · simp [takeForm_cons_done hs] at h
      · rw [takeForm_cons_inside hs hin] at h
        exact ih hin.first h

end Reader

variable {ts : List Token} {p q : Nat} {f : Form} {e : ParseError}

theorem parse_of_takeForm_error (h : Reader.start.takeForm ts = some (.error e)) :
    parse ts = .error e := by
  rcases Reader.run_of_takeForm_error rfl h with hrun | ⟨r, hrun, hfinish⟩
  · simp only [parse, hrun]
  · simp only [parse, hrun, hfinish]

/-- **A program is read by one form after the other**, until no token is left. -/
theorem parse_eq_takeForm (ts : List Token) : parse ts =
    match Reader.start.takeForm ts with
    | none => .ok []
    | some result => result.bind fun (f, rest) => (parse rest).map (f :: ·) := by
  cases h : Reader.start.takeForm ts with
  | none =>
    rw [Reader.takeForm_start_eq_none_iff.1 h]
    rfl
  | some result =>
    cases result with
    | error e => exact parse_of_takeForm_error h
    | ok taken =>
      obtain ⟨f, rest⟩ := taken
      obtain ⟨hf, used, rfl, hused⟩ := Reader.takeForm_eq_ok_iff.1 h
      have hone : parse used = .ok [f] :=
        parse_of_flatAll ⟨hf, trivial⟩ (by simpa [Form.flatAll] using hused)
      exact parse_append hone

/-! ## Parentheses -/

/-- A form closes as many parentheses as it opens. -/
theorem Form.count_eq (f : Form) : f.flat.count .leftParen = f.flat.count .rightParen := by
  have htotal := f.shape.balanced.total
  rw [depthOf_eq_count] at htotal
  omega

/-- In front of its last token a form has closed fewer parentheses than it has opened. -/
theorem Form.count_lt {us vs : List TokenKind} (h : f.flat = us ++ vs) (hu : us ≠ [])
    (hv : vs ≠ []) : us.count .rightParen < us.count .leftParen := by
  have hpos := Form.depth_pos h hu hv
  rw [depthOf_eq_count] at hpos
  omega

/-! ## Positions -/

/-- From `p` to `q` stand the tokens of the form. -/
structure FormBetween (ts : List Token) (p : Nat) (f : Form) (q : Nat) : Prop where
  progress : p < q
  bound : q ≤ ts.length
  textual : f.Textual
  tokens : (ts.extract p q).map Token.kind = f.flat

theorem drop_eq_extract_append (ts : List Token) (hpq : p ≤ q) :
    ts.drop p = ts.extract p q ++ ts.drop q := by
  have hsum : p + (q - p) = q := by omega
  rw [List.extract_eq_take_drop, ← hsum, ← List.drop_drop, hsum, List.take_append_drop]

/-- **A form is read exactly from where its tokens start to where they end.** -/
theorem formAt_eq_ok_iff : formAt ts p = some (.ok (f, q)) ↔ FormBetween ts p f q := by
  constructor
  · intro h
    obtain ⟨rest, htake, rfl⟩ : ∃ rest, Reader.start.takeForm (ts.drop p) = some (.ok (f, rest)) ∧
        ts.length - rest.length = q := by
      rcases hresult : Reader.start.takeForm (ts.drop p) with _ | _ | ⟨g, rest⟩ <;>
        simp only [formAt, hresult, Option.map, Except.map, Option.some.injEq, Except.ok.injEq,
          Prod.mk.injEq, reduceCtorEq] at h
      exact ⟨rest, by rw [h.1], h.2⟩
    obtain ⟨hf, used, hts, hused⟩ := Reader.takeForm_eq_ok_iff.1 htake
    have hlen : ts.length - p = used.length + rest.length := by
      simpa using congrArg List.length hts
    have hpos : 0 < used.length := List.length_pos_iff.2 fun hnil =>
      f.flat_ne_nil (by simp [← hused, hnil])
    refine ⟨by omega, by omega, hf, ?_⟩
    have hq : ts.length - rest.length - p = used.length := by omega
    rw [List.extract_eq_take_drop, hts, hq, List.take_left, hused]
  · intro ⟨hpq, hq, hf, hkinds⟩
    have hdrop := drop_eq_extract_append ts (Nat.le_of_lt hpq)
    have htake := Reader.takeForm_eq_ok_iff.2 ⟨hf, _, hdrop, hkinds⟩
    have hend : ts.length - (ts.length - q) = q := by omega
    simp [formAt, htake, Except.map, hend]

namespace FormBetween

variable {us before behind : List Token} {k : Nat}

theorem length (h : FormBetween ts p f q) : (ts.extract p q).length = q - p := by
  have hbound := h.bound
  simp
  omega

/-- Only the tokens from `p` to `q` matter, and of them only what they are. -/
theorem congr (h : FormBetween ts p f q)
    (hus : (us.extract p q).map Token.kind = (ts.extract p q).map Token.kind) :
    FormBetween us p f q where
  progress := h.progress
  bound := by
    have hlen : (us.extract p q).length = q - p := by
      simpa only [List.length_map, h.length] using congrArg List.length hus
    have hprogress := h.progress
    simp at hlen
    omega
  textual := h.textual
  tokens := hus.trans h.tokens

/-- The same tokens between others. -/
theorem move (h : FormBetween ts p f q) (before behind : List Token) :
    FormBetween (before ++ ts.extract p q ++ behind) before.length f (before.length + (q - p)) where
  progress := by have := h.progress; omega
  bound := by rw [List.length_append, List.length_append, h.length]; omega
  textual := h.textual
  tokens := by
    rw [List.extract_eq_take_drop (l := before ++ _ ++ _), List.append_assoc, List.drop_left,
      Nat.add_sub_cancel_left, ← h.length, List.take_left, h.tokens]

/-- The tokens up to a position inside and those behind it. -/
theorem split (h : FormBetween ts p f q) (hp : p < k) (hq : k < q) :
    ∃ us vs, f.flat = us ++ vs ∧ us = (ts.extract p k).map Token.kind ∧ us ≠ [] ∧ vs ≠ [] := by
  have hbound := h.bound
  have hcut : ts.extract p q = ts.extract p k ++ ts.extract k q := by
    have hk : p + (k - p) = k := by omega
    have hsum : q - p = (k - p) + (q - k) := by omega
    rw [List.extract_eq_take_drop, hsum, List.take_add, List.drop_drop, hk]
  refine ⟨_, (ts.extract k q).map Token.kind, ?_, rfl, ?_, ?_⟩
  · rw [← h.tokens, hcut, List.map_append]
  · simp
    omega
  · simp
    omega

end FormBetween

/-- What it means that the form `f` is read from `p` to `q`. -/
structure ReadsForm (ts : List Token) (p : Nat) (f : Form) (q : Nat) : Prop extends
    FormBetween ts p f q where
  balanced : ((ts.extract p q).map Token.kind).count .leftParen =
    ((ts.extract p q).map Token.kind).count .rightParen
  /-- Some parenthesis is open at every position inside. -/
  inside : ∀ k, p < k → k < q → ((ts.extract p k).map Token.kind).count .rightParen <
    ((ts.extract p k).map Token.kind).count .leftParen
  /-- Only what the tokens from `p` to `q` are matters. -/
  independent : ∀ us, (us.extract p q).map Token.kind = (ts.extract p q).map Token.kind →
    formAt us p = some (.ok (f, q))
  /-- Where they stand does not matter either. -/
  moved : ∀ before behind, formAt (before ++ ts.extract p q ++ behind) before.length =
    some (.ok (f, before.length + (q - p)))
  /-- Wherever the reader waits for a form, it reads this one from them. -/
  handed : ∀ r waiting, Reader.Awaits r waiting →
    r.run (ts.extract p q) = .ok (Reader.deliver f r.done waiting)

theorem FormBetween.reads (h : FormBetween ts p f q) : ReadsForm ts p f q where
  toFormBetween := h
  balanced := by rw [h.tokens, f.count_eq]
  inside := by
    intro k hp hq
    obtain ⟨us, vs, hflat, rfl, hu, hv⟩ := h.split hp hq
    exact Form.count_lt hflat hu hv
  independent := fun us hus => formAt_eq_ok_iff.2 (h.congr hus)
  moved := fun before behind => formAt_eq_ok_iff.2 (h.move before behind)
  handed := fun r waiting hr => Reader.reads_form hr f h.textual _ h.tokens

/-- In front of a token there is a result. -/
theorem exists_formAt (hp : p < ts.length) : ∃ result, formAt ts p = some result := by
  refine Option.ne_none_iff_exists'.1 fun hnone => ?_
  have hdrop := Reader.takeForm_start_eq_none_iff.1 (Option.map_eq_none_iff.1 hnone)
  rw [List.drop_eq_nil_iff] at hdrop
  omega

/-- The tokens from `p` on are read by one form after the other. -/
theorem parse_drop {result : Except ParseError (Form × Nat)} (h : formAt ts p = some result) :
    parse (ts.drop p) = result.bind fun (f, q) => (parse (ts.drop q)).map (f :: ·) := by
  obtain ⟨taken, htake, rfl⟩ := Option.map_eq_some_iff.1 h
  rw [parse_eq_takeForm, htake]
  cases taken with
  | error e => rfl
  | ok taken =>
    obtain ⟨f, rest⟩ := taken
    obtain ⟨-, used, hdrop, -⟩ := Reader.takeForm_eq_ok_iff.1 htake
    have hsuffix : rest <:+ ts := (List.suffix_append used rest).trans (hdrop ▸ ts.drop_suffix p)
    have hrest : rest = ts.drop (ts.length - rest.length) := List.suffix_iff_eq_drop.1 hsuffix
    exact congrArg (fun us => (parse us).map (f :: ·)) hrest

/-- **Reading a form is local and makes progress.** At every position in front of a token the
reader ends with a form or an error. A form ends behind `p` and inside the tokens, its tokens are
balanced and nowhere before their end, and the same tokens are read as the same form wherever they
stand. Forms in a row are the program. -/
theorem formAt_local (hp : p < ts.length) :
    ∃ result, formAt ts p = some result ∧
      (∀ f q, result = .ok (f, q) → ReadsForm ts p f q) ∧
      (∀ e, result = .error e → parse (ts.drop p) = .error e ∧ ∀ f q, ¬ FormBetween ts p f q) ∧
      parse (ts.drop p) = result.bind fun (f, q) => (parse (ts.drop q)).map (f :: ·) := by
  obtain ⟨result, hresult⟩ := exists_formAt hp
  refine ⟨result, hresult, ?_, ?_, parse_drop hresult⟩
  · rintro f q rfl
    exact (formAt_eq_ok_iff.1 hresult).reads
  · rintro e rfl
    refine ⟨parse_drop hresult, fun f q hbetween => ?_⟩
    rw [formAt_eq_ok_iff.2 hbetween] at hresult
    exact absurd hresult (by simp)

/-- `(set x ())` in front of tokens that are no form. -/
theorem formAt_local_assign :
    let ts : List Token := [⟨.symbol "y", "y", 1⟩, ⟨.leftParen, "(", 1⟩,
      ⟨.keyword .assign, "set", 1⟩, ⟨.symbol "x", "x", 1⟩, ⟨.leftParen, "(", 1⟩,
      ⟨.rightParen, ")", 1⟩, ⟨.rightParen, ")", 1⟩, ⟨.rightParen, ")", 2⟩]
    1 < ts.length ∧ formAt ts 1 = some (.ok (.assign "x" (.apply []), 7)) ∧
      ReadsForm ts 1 (.assign "x" (.apply [])) 7 := by
  intro ts
  have hp : 1 < ts.length := by simp [ts]
  have hform : formAt ts 1 = some (.ok (.assign "x" (.apply []), 7)) := rfl
  obtain ⟨result, hresult, hreads, -⟩ := formAt_local hp
  have hok : result = .ok (.assign "x" (.apply []), 7) := Option.some.inj (hresult.symm.trans hform)
  exact ⟨hp, hform, hreads _ _ hok⟩

end FlatLisp
