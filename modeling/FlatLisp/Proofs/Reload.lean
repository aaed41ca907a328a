import FlatLisp.Proofs.Buffers
import FlatLisp.Proofs.Equality
import FlatLisp.Proofs.Joining
import FlatLisp.Proofs.Stepping

/-!
# Stored functions can be written out

Program texts are evaluated one after another in a session, and a function that one of them
defines may lie anywhere in what a later one returns or binds. It was read from a text all the
same, as a form or inside one: a run makes no code (`within_of_reaches`). So its names are words
and its body can be written, and the text of its definition brings it back.

* `sound_of_ends`: **an evaluation keeps to functions that can be written.**
* `Dialogue.withoutProcedures`: no literal in the body of such a function holds a procedure.
* `ends_source`: the text of a definition defines what it says.
* `reload`: **every function of a session is brought back by its text**, in any session.
-/

namespace FlatLisp

open Value

/-! ## Forms inside well-formed forms -/

/-- A part of a well-formed form is well formed. -/
theorem Form.WellFormed.child {f g : Form} (hf : f.WellFormed) (hg : g ∈ f.children) :
    g.WellFormed := by
  cases f with
  | literal l => exact absurd hg List.not_mem_nil
  | symbol name => exact absurd hg List.not_mem_nil
  | apply items => exact allWellFormed_iff.1 hf g hg
  | assign target value =>
    obtain rfl := List.mem_singleton.1 hg
    exact hf.2
  | branch test yes no =>
    have hall : AllWellFormed [test, yes, no] := ⟨hf.1, hf.2.1, hf.2.2, trivial⟩
    exact allWellFormed_iff.1 hall g hg
  | whileLoop test body =>
    have hall : AllWellFormed (test :: body) := hf
    exact allWellFormed_iff.1 hall g hg
  | forLoop start test step body =>
    have hall : AllWellFormed (start :: test :: step :: body) := hf
    exact allWellFormed_iff.1 hall g hg
  | define name params body => exact allWellFormed_iff.1 hf.2.2 g hg

theorem Value.WellFormed.plain : ∀ {v : Value}, v.WellFormed → v.Plain
  | .number _, _ => trivial
  | .string _, _ => trivial

/-- What can be written as a literal holds no procedure, so nothing stands in it. -/
theorem Form.Inside.wellFormed {f g : Form} (hg : g.Inside f) (hf : f.WellFormed) : g.WellFormed := by
  refine hg.closed (fun _ hf _ hg => Form.WellFormed.child hf hg) (fun v hv p hp => ?_) hf
  exact ((Value.WellFormed.plain hv).no_procedure hp).elim

theorem Form.withoutProcedures {fs : List Form} (h : ∀ f ∈ fs, f.WellFormed) :
    WithoutProcedures fs := by
  intro v hv p hp
  obtain ⟨f, hf, hv⟩ := List.mem_flatMap.1 hv
  have hwell : v.WellFormed := (inside_of_mem_nodes hv).wellFormed (h f hf)
  exact (Value.WellFormed.plain hwell).no_procedure hp

/-- A well-formed form has no NaN, so it is equal to itself. -/
theorem Form.WellFormed.not_isNaN {f : Form} (hf : f.WellFormed) {x : Number} (hx : f.Has x) :
    x.isNaN = false := by
  obtain ⟨v, hv, hpart⟩ := hx
  have hwell : v.WellFormed := hv.wellFormed hf
  obtain ⟨a, rfl⟩ := (Value.WellFormed.plain hwell).exists_atom
  obtain rfl := Value.atom.inj (part_atom hpart)
  have hfinite : x.isFinite = true := hwell.1
  simp only [Number.isFinite, decide_eq_true_eq] at hfinite
  simp only [Number.isNaN, decide_eq_false_iff_not]
  omega

theorem Form.sameAll_self {fs : List Form} (h : ∀ f ∈ fs, f.WellFormed) : Form.sameAll fs fs = true := by
  have hequal : ∀ f ∈ fs, ∀ x, f.Has x → x.Equal x := by
    intro f hf x hx
    refine (Number.Similar.refl x).equal ?_
    simp [Form.WellFormed.not_isNaN (h f hf) hx]
  have hself : Form.AllCompare Number.Equal False fs fs := Form.allCompare_self fs hequal
  exact Form.sameAll_of_allCompare hself

/-- What is read is well formed. -/
theorem wellFormed_of_readForms {source : String} {fs : List Form} (h : readForms source = .ok fs) :
    ∀ f ∈ fs, f.WellFormed := by
  rw [readForms_eq, readFrom_eq_ok_iff] at h
  obtain ⟨ts, hts, hfs⟩ := h
  have hplain : ∀ k ∈ ts.map Token.kind, k.Plain := plain_of_tokenize hts
  rw [flatAll_of_parse hfs] at hplain
  exact Form.allWellFormed_iff.1 (Form.allWellFormed_of_flat fs (textual_of_parse hfs) hplain)

/-! ## Functions that can be written -/

/-- The form that defines the function. -/
def Procedure.form (p : Procedure Form) : Form := .define p.name p.params p.body

/-- Its names are words, and its body can be written. -/
def Procedure.WellFormed (p : Procedure Form) : Prop := p.form.WellFormed

/-- Every function in the value can be written. -/
def Value.Sound (v : Value) : Prop := ∀ p, Part (.procedure p) v → p.WellFormed

/-- Every function in a bound value can be written. -/
def Environment.Sound (e : Environment) : Prop := ∀ name v, e.find? name = some v → v.Sound

/-- Every function in a bound value or in the result can be written. -/
def Outcome.Sound : Outcome Value → Prop
  | .done v s => v.Sound ∧ s.env.Sound
  | .failed _ s => s.env.Sound
  | .exhausted => True

theorem Value.Plain.sound {v : Value} (hv : v.Plain) : v.Sound :=
  fun _ hp => (hv.no_procedure hp).elim

section Runs

variable {fs : List Form} {s : Session} {p : Procedure Form}

/-- The code of a run is well formed if the program is, and what is bound. -/
theorem wellFormed_of_code (hfs : ∀ f ∈ fs, f.WellFormed) (hs : s.env.Sound) {f : Form}
    (hf : Code fs (s.env.Binds AnyName) f) : f.WellFormed := by
  cases hf with
  | program hmem hf => exact hf.wellFormed (hfs _ hmem)
  | body hv hp hmem hf =>
    obtain ⟨name, -, hv⟩ := hv
    exact hf.wellFormed ((hs name _ hv _ hp).child hmem)

theorem wellFormed_of_atHand (hfs : ∀ f ∈ fs, f.WellFormed) (hs : s.env.Sound)
    (hp : AtHand fs (s.env.Binds AnyName) p) : p.WellFormed := by
  obtain ⟨v, ⟨name, -, hv⟩ | hv, hpart⟩ := hp
  · exact hs name v hv p hpart
  · have hwell : v.WellFormed := wellFormed_of_code hfs hs hv
    exact (hwell.plain.no_procedure hpart).elim

theorem wellFormed_of_known (hfs : ∀ f ∈ fs, f.WellFormed) (hs : s.env.Sound)
    (hp : Known fs (s.env.Binds AnyName) p) : p.WellFormed := by
  rcases hp with hp | hp
  · exact wellFormed_of_atHand hfs hs hp
  · exact wellFormed_of_code hfs hs hp

theorem sound_of_holds (hfs : ∀ f ∈ fs, f.WellFormed) (hs : s.env.Sound) {m : Moment}
    (hm : (Moment.start fs s).Reaches m) {v : Value} (hv : m.Holds AnyName v) : v.Sound := by
  have hwithin : m.Within AnyName fs (s.env.Binds AnyName) :=
    Moment.within_of_reaches (fun _ _ => trivial) Moment.within_start hm
  exact fun p hp => wellFormed_of_known hfs hs (hwithin.procedures v p hv hp)

theorem sound_of_ends_forms (hfs : ∀ f ∈ fs, f.WellFormed) (hs : s.env.Sound) {o : Outcome Value}
    (h : Ends (fun n => evalForms n fs s) o) : o.Sound := by
  obtain ⟨m, hm, ho⟩ := (ends_iff_reaches fs s o).1 h
  have henv : m.session.env.Sound := fun name v hv =>
    sound_of_holds hfs hs hm (.bound trivial hv)
  rcases Moment.outcome_cases ho with ⟨v, hc, -, rfl⟩ | ⟨e, -, rfl⟩
  · refine ⟨sound_of_holds hfs hs hm (.control ?_), henv⟩
    simp [hc, Control.values]
  · exact henv

/-- **An evaluation keeps to functions that can be written**, also one that fails. -/
theorem sound_of_ends {source : String} (hs : s.env.Sound) {o : Outcome Value}
    (h : Ends (fun n => evalSource n source s) o) : o.Sound := by
  unfold evalSource at h
  cases hfs : readForms source with
  | ok fs =>
    rw [hfs] at h
    exact sound_of_ends_forms (wellFormed_of_readForms hfs) hs h
  | error e =>
    rw [hfs] at h
    obtain ⟨-, -, rfl⟩ := h
    exact hs

end Runs

/-! ## Sessions -/

/-- A session with the results that it returned, the latest first: program texts are evaluated
one after another, over the builtins with or without the standard library. A failure keeps what
was done before it. -/
inductive Dialogue : Session → List Value → Prop
  | core : Dialogue (.fresh .core) []
  | standard : Dialogue (.fresh .standard) []
  | returned {s s' : Session} {results : List Value} {source : String} {v : Value} :
    Dialogue s results → Ends (fun n => evalSource n source s) (.done v s') →
    Dialogue s' (v :: results)
  | failed {s s' : Session} {results : List Value} {source : String} {e : Error} :
    Dialogue s results → Ends (fun n => evalSource n source s) (.failed e s') →
    Dialogue s' results

theorem Environment.Sound.define {e : Environment} (he : e.Sound) (name : String) {v : Value}
    (hv : v.Sound) : (e.define name v).Sound := by
  intro n w hw
  rw [find?_define] at hw
  split at hw
  · obtain rfl := Option.some.inj hw
    exact hv
  · exact he n w hw

theorem Environment.Sound.withBuiltins {e : Environment} (he : e.Sound) (bs : List Builtin) :
    (e.withBuiltins bs).Sound := by
  intro n w hw
  rcases find?_defineAll_cases hw with hmem | hw
  · obtain ⟨b, -, hb⟩ := List.mem_map.1 hmem
    obtain ⟨-, rfl⟩ := Prod.mk.inj hb
    exact Plain.sound trivial
  · exact he n w hw

theorem Environment.sound_core : core.Sound := by
  have hempty : empty.Sound := fun name v hv => by simp at hv
  have hbool : (Value.bool true).Sound := Plain.sound trivial
  have hnil : Value.nil.Sound := Plain.sound trivial
  exact ((hempty.withBuiltins Builtin.core).define "t" hbool).define "nil" hnil

/-- **All functions of a session can be written**, those in its results included. -/
theorem Dialogue.sound {s : Session} {results : List Value} (h : Dialogue s results) :
    s.env.Sound ∧ ∀ v ∈ results, v.Sound := by
  induction h with
  | core => exact ⟨Environment.sound_core, by simp⟩
  | standard => exact ⟨Environment.sound_core.withBuiltins _, by simp⟩
  | returned _ hends ih =>
    obtain ⟨hv, henv⟩ := sound_of_ends ih.1 hends
    exact ⟨henv, List.forall_mem_cons.2 ⟨hv, ih.2⟩⟩
  | failed _ hends ih => exact ⟨sound_of_ends ih.1 hends, ih.2⟩

/-- **What texts say holds no procedure in a body**: for a program that is read in a session, the
code is what can be seen of it (`code_iff`). -/
theorem Dialogue.withoutProcedures {s : Session} {results : List Value} (h : Dialogue s results)
    {source : String} {fs : List Form} (hfs : readForms source = .ok fs) {N : String → Prop}
    {p : Procedure Form} (hp : Given fs (s.env.Binds N) p) : WithoutProcedures p.body := by
  have hprogram := wellFormed_of_readForms hfs
  have hwell : p.WellFormed := by
    obtain ⟨v, ⟨name, -, hv⟩ | hv, hpart⟩ := hp
    · exact h.sound.1 name v hv p hpart
    · exact absurd hpart (Form.withoutProcedures hprogram v hv p)
  exact Form.withoutProcedures fun f hf => hwell.child hf

/-! ## Writing a function out -/

/-- The text of a definition: the name, the parameters, and the forms of the body. -/
def Procedure.source (p : Procedure Form) : String :=
  "(defn " ++ p.name ++ " (" ++ " ".intercalate p.params ++ ")" ++
    String.join (p.body.map fun f => " " ++ f.text) ++ ")"

theorem Form.textAfter_eq_join (fs : List Form) :
    Form.textAfter fs = String.join (fs.map fun f => " " ++ f.text) := by
  induction fs with
  | nil => rfl
  | cons f fs ih => simp [Form.textAfter, ih]

theorem Procedure.source_eq (p : Procedure Form) : p.source = p.form.text := by
  rw [source, ← Form.textAfter_eq_join, form, Form.text]

theorem Procedure.WellFormed.readForms_source {p : Procedure Form} (hp : p.WellFormed) :
    readForms p.source = .ok [p.form] := by
  rw [readForms_iff_writes, p.source_eq]
  refine ⟨⟨Form.textual_of_wellFormed p.form hp, trivial⟩, ?_⟩
  simpa [Form.flatAll] using writes_form p.form hp

/-- **The text of a definition defines what it says**, whatever is bound. -/
theorem ends_source {p : Procedure Form} (hp : p.WellFormed) (s : Session) :
    Ends (fun n => evalSource n p.source s) (.done .nil (s.define p.name (.procedure p))) := by
  refine ⟨by simp, 2, ?_⟩
  simp only [evalSource_eq hp.readForms_source]
  rfl

theorem Procedure.WellFormed.same_self {p : Procedure Form} (hp : p.WellFormed) : p.same p = true := by
  have hbody : Form.sameAll p.body p.body = true := Form.sameAll_self fun f hf => hp.child hf
  simp [Procedure.same, hbody]

/-- **Every function of a session is brought back by its text.** Say that it lies in a bound value
or in a result. Then in any session, the text of its definition is evaluated without a failure
and prints nothing; its name is bound to the function itself, with its name, parameters and body,
which equals the old one for programs; and nothing else is changed. -/
theorem reload {s : Session} {results : List Value} (h : Dialogue s results) {v : Value}
    (hv : v ∈ results ∨ ∃ name, s.env.find? name = some v) {p : Procedure Form}
    (hp : Value.Part (.procedure p) v) (t : Session) :
    Ends (fun n => evalSource n p.source t) (.done .nil (t.define p.name (.procedure p))) ∧
      (t.define p.name (.procedure p)).env.find? p.name = some (.procedure p) ∧
      ∀ u, Builtin.equal.call [.procedure p, .procedure p] u = (.ok (.bool true), u) := by
  have hsound : v.Sound := by
    rcases hv with hv | ⟨name, hv⟩
    · exact h.sound.2 v hv
    · exact h.sound.1 name v hv
  have hwell : p.WellFormed := hsound p hp
  refine ⟨ends_source hwell t, ?_, fun u => ?_⟩
  · simp [Session.define, Environment.find?_define]
  · have hsame : (Value.procedure p).same (.procedure p) = true := hwell.same_self
    simp [Builtin.call, Builtin.operation, Operation.apply, hsame, Session.receive_value]

/-- A function with one parameter twice, which defines another function. -/
def nested : Procedure Form := ⟨"f", ["x", "x"], [.define "g" [] [.symbol "x"]]⟩

/-- A session over the standard library that stores a function. -/
def storing (p : Procedure Form) : Session := (Session.fresh .standard).define p.name (.procedure p)

theorem nested_wellFormed : nested.WellFormed := by
  have hname : ∀ n ∈ ["f", "g", "x"], IsName n := by
    intro n hn
    simp only [List.mem_cons, List.not_mem_nil, or_false] at hn
    rcases hn with rfl | rfl | rfl <;>
      exact ⟨by simp, by rintro (_ | _) <;> simp [Keyword.word], by decide, by simp,
        by simp [isDelimiter, isSeparator]⟩
  exact ⟨hname "f" (by simp), by simpa [nested] using hname "x" (by simp),
    ⟨hname "g" (by simp), by simp, hname "x" (by simp), trivial⟩, trivial⟩

/-- A session of two texts: one defines the function, the other returns it in a list. -/
theorem nested_returned : ∃ s, Dialogue s [.cell 0 (.procedure nested) .nil, .nil] := by
  have hdefined := Dialogue.standard.returned (ends_source nested_wellFormed _)
  have hlist : Environment.standard.find? "list" = some (.builtin .list) := by
    simp [Environment.standard, Environment.withBuiltins, Builtin.library, Builtin.lists,
      Builtin.reflection, Builtin.texts, Environment.defineAll, Environment.find?_define, Builtin.name]
  have hread : readForms "(list f)" = .ok [.apply [.symbol "list", .symbol "f"]] := by
    have hcut : Lexeme.cut 1 "(list f)".toList =
        .ok [(1, .leftParen), (1, .word "list"), (1, .word "f"), (1, .rightParen)] := by cbv
    rw [readForms, tokenize, hcut]
    rfl
  have hreturned : Ends (fun n => evalSource n "(list f)" (storing nested))
      (.done (.cell 0 (.procedure nested) .nil) { storing nested with nextStamp := 1 }) := by
    refine ⟨by simp, 5, ?_⟩
    simp only [evalSource_eq hread, evalBody, eval]
    simp [storing, nested, Session.define, Session.fresh, Environment.find?_define, hlist, evalEach,
      eval, Outcome.andThen, Outcome.ofExcept, Builtin.call, Builtin.operation, Operation.apply,
      Session.receive, Session.print, Session.chain, Yield.list, ofList, prepend]
  exact ⟨_, hdefined.returned hreturned⟩

theorem reload_nested : ∃ s v, Dialogue s [v, .nil] ∧ Value.Part (.procedure nested) v ∧
    v ≠ .procedure nested ∧ ∀ t,
      Ends (fun n => evalSource n nested.source t) (.done .nil (t.define "f" (.procedure nested))) ∧
        (t.define "f" (.procedure nested)).env.find? "f" = some (.procedure nested) ∧
        ∀ u, Builtin.equal.call [.procedure nested, .procedure nested] u = (.ok (.bool true), u) := by
  obtain ⟨s, hs⟩ := nested_returned
  have hpart : Value.Part (.procedure nested) (.cell 0 (.procedure nested) .nil) := .head .refl
  exact ⟨s, _, hs, hpart, by simp, fun t => reload hs (.inl List.mem_cons_self) hpart t⟩

/-- Its text. -/
example : nested.source = "(defn f (x x) (defn g () x))" := by decide

end FlatLisp
