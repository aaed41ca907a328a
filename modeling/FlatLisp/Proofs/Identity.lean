import FlatLisp.Proofs.Equality
import FlatLisp.Proofs.Grammar

/-!
# Stamps through a session

A session gives out each stamp once, and no cell changes after it was made. So through all that
is evaluated in a session, one piece of program after another, a stamp says what a cell holds:
there is one record of stamps that all values agree with, those of the past included. It grows
with each chain that a builtin makes.

* `issued_of_history`: **the values of a session agree on what stamps say.**
* `equality_in_session`: what follows for the equality of programs.
-/

namespace FlatLisp

open Value

/-! ## Records of stamps -/

/-- Each cell in the form has a stamp below `n` and holds what the record `σ` says of it. -/
def Form.Issued (σ : Nat → Value × Value) (n : Nat) (f : Form) : Prop :=
  ∀ i h t, f.Holds (.cell i h t) → i < n ∧ σ i = (h, t)

/-- Each cell in the value, and in the bodies of procedures in it, has a stamp below `n` and holds
what the record `σ` says of it. -/
def Value.Issued (σ : Nat → Value × Value) (n : Nat) (v : Value) : Prop := (Form.literal v).Issued σ n

section Issued

variable {σ σ' : Nat → Value × Value} {n n' : Nat} {f g : Form} {p : Procedure Form} {v w : Value}

theorem Form.Issued.child (hf : f.Issued σ n) (hg : g ∈ f.children) : g.Issued σ n :=
  fun i h t hc => hf i h t (hc.child hg)

/-- A longer record says the same of the stamps that were given out before. -/
theorem Form.Issued.mono (hf : f.Issued σ n) (hn : n ≤ n') (hσ : ∀ i < n, σ' i = σ i) :
    f.Issued σ' n' := by
  intro i h t hc
  obtain ⟨hi, hcell⟩ := hf i h t hc
  exact ⟨by omega, (hσ i hi).trans hcell⟩

namespace Value

theorem Issued.stamped (hv : v.Issued σ n) : v.Stamped σ := fun i h t hc => (hv i h t hc).2

theorem Issued.part (hv : v.Issued σ n) (hw : Part w v) : w.Issued σ n :=
  fun i h t hc => hv i h t (hc.part hw)

theorem Issued.body (hp : (Value.procedure p).Issued σ n) (hf : f ∈ p.body) : f.Issued σ n :=
  fun i h t hc => hp i h t (hc.body hf)

theorem Plain.issued (hv : v.Plain) : v.Issued σ n := by
  intro i h t hc
  obtain rfl := hv.eq_of_holds hc
  exact hv.elim

theorem issued_procedure (hp : ∀ f ∈ p.body, f.Issued σ n) : (Value.procedure p).Issued σ n := by
  intro i h t hc
  rcases Form.holds_procedure.1 hc with hc | ⟨f, hf, hc⟩
  · exact absurd hc (by simp)
  · exact hp f hf i h t hc

theorem Issued.cell (hv : v.Issued σ n) (hw : w.Issued σ n) (hn : n < n') (hσ : σ n = (v, w)) :
    (cell n v w).Issued σ n' := by
  intro i h t hc
  rcases Form.holds_cell.1 hc with heq | hc | hc
  · obtain ⟨rfl, rfl, rfl⟩ := Value.cell.inj heq
    exact ⟨hn, hσ⟩
  · obtain ⟨hi, hcell⟩ := hv i h t hc
    exact ⟨by omega, hcell⟩
  · obtain ⟨hi, hcell⟩ := hw i h t hc
    exact ⟨by omega, hcell⟩

/-- Fresh cells are recorded one by one. -/
theorem issued_prepend {items : List Value} {tail : Value}
    (h : ∀ v ∈ tail :: items, v.Issued σ n) :
    ∃ σ', (∀ i < n, σ' i = σ i) ∧ (prepend n items tail).Issued σ' (n + items.length) := by
  induction items generalizing σ n tail with
  | nil => exact ⟨σ, fun _ _ => rfl, h tail List.mem_cons_self⟩
  | cons item items ih =>
    obtain ⟨σ₁, hold, hnew⟩ : ∃ σ₁ : Nat → Value × Value, (∀ i < n, σ₁ i = σ i) ∧
        σ₁ n = (item, tail) :=
      ⟨Function.update σ n (item, tail), fun i hi => Function.update_of_ne (by omega) _ _,
        Function.update_self n _ σ⟩
    have hitems : ∀ v ∈ Value.cell n item tail :: items, v.Issued σ₁ (n + 1) := by
      intro v hv
      rcases List.mem_cons.1 hv with rfl | hv
      · have hitem : item.Issued σ₁ n := Form.Issued.mono (h item (by simp)) (Nat.le_refl n) hold
        have htail : tail.Issued σ₁ n := Form.Issued.mono (h tail (by simp)) (Nat.le_refl n) hold
        exact hitem.cell htail (by omega) hnew
      · exact Form.Issued.mono (h v (by simp [hv])) (by omega) hold
    obtain ⟨σ', hσ', hchain⟩ := ih hitems
    refine ⟨σ', fun i hi => (hσ' i (by omega)).trans (hold i hi), ?_⟩
    have hlen : n + (item :: items).length = n + 1 + items.length := by
      rw [List.length_cons]
      omega
    rw [hlen]
    exact hchain

end Value

end Issued

/-! ## Sessions -/

/-- No literal of the form holds a cell. -/
def Form.WithoutCells (f : Form) : Prop := ∀ i h t, ¬ f.Holds (.cell i h t)

theorem Value.Plain.withoutCells {v : Value} (hv : v.Plain) : (Form.literal v).WithoutCells := by
  intro i h t hc
  obtain rfl := hv.eq_of_holds hc
  exact hv.elim

/-- What is read from a text brings no cells along. -/
theorem Form.Textual.withoutCells {f : Form} (hf : f.Textual) : f.WithoutCells := by
  rintro i h t ⟨v, hv, hpart⟩
  have hplain : ∀ {u : Value}, (Form.literal u).Textual → u.Plain
    | .number _, _ => trivial
    | .string _, _ => trivial
  have hv : v.Plain := hplain <| hv.closed (fun _ hf _ => hf.child)
    (fun u hu p hp => ((hplain hu).no_procedure hp).elim) hf
  exact hv.withoutCells i h t ⟨v, .refl, hpart⟩

/-- A session at a moment, with the earlier ones, the latest first. It starts over an environment
without cells, goes on step by step, and may evaluate further forms when an evaluation has ended;
what it has printed does not matter. The forms bring no cells along. -/
inductive History : Moment → List Moment → Prop
  | start {fs : List Form} {s : Session} :
    (∀ name v, s.env.find? name = some v → (Form.literal v).WithoutCells) →
    (∀ f ∈ fs, f.WithoutCells) → History (.start fs s) []
  | next {m m' : Moment} {past : List Moment} : History m past → m.next = some m' →
    History m' (m :: past)
  | again {m : Moment} {past : List Moment} {fs : List Form} (printed : String) : History m past →
    m.outcome?.isSome → (∀ f ∈ fs, f.WithoutCells) →
    History (.start fs { m.session with printed }) (m :: past)

/-- The value lies in one that is held now, or was before. -/
def Occurs (m : Moment) (past : List Moment) (v : Value) : Prop :=
  ∃ m' ∈ m :: past, ∃ w, m'.Holds AnyName w ∧ v.Part w

section Histories

variable {m m' : Moment} {past : List Moment} {s : Session} {fs : List Form}

/-- At its start an evaluation holds nil and what is bound. -/
theorem holds_start {v : Value} (h : (Moment.start fs s).Holds AnyName v) :
    v = .nil ∨ ∃ name, s.env.find? name = some v := by
  cases h with
  | control hv => exact .inl (List.mem_singleton.1 hv)
  | waiting hw hv =>
    obtain rfl := List.mem_singleton.1 hw
    exact absurd hv List.not_mem_nil
  | @bound name _ _ hv => exact .inr ⟨name, hv⟩

theorem awaits_start {f : Form} (h : (Moment.start fs s).Awaits f) : f ∈ fs := by
  cases h with
  | control hf => exact absurd hf List.not_mem_nil
  | waiting hw hf =>
    obtain rfl := List.mem_singleton.1 hw
    exact hf

/-- The record holds of all values and forms of the moment. -/
structure Moment.Issued (σ : Nat → Value × Value) (n : Nat) (m : Moment) : Prop where
  values : ∀ v, m.Holds AnyName v → v.Issued σ n
  forms : ∀ f, m.Awaits f → f.Issued σ n

/-- A step extends the record by the cells that it makes. -/
theorem issued_next {σ : Nat → Value × Value} (hnext : m.next = some m')
    (h : ∀ m₀ ∈ m :: past, m₀.Issued σ m.session.nextStamp) :
    ∃ σ', ∀ m₀ ∈ m' :: m :: past, m₀.Issued σ' m'.session.nextStamp := by
  have hstep : m.Successor AnyName m' := Moment.successor (fun _ _ => trivial) hnext
  obtain ⟨y, hy, hstamp, hvalues⟩ := hstep.values
  have hparts : ∀ v ∈ y.tail :: y.items.reverse, v.Issued σ m.session.nextStamp := by
    intro v hv
    rcases hy v (by simpa using hv) with hplain | ⟨a, ha, hpart⟩
    · exact hplain.issued
    · exact ((h m List.mem_cons_self).values a ha).part hpart
  obtain ⟨σ', hσ', hfresh⟩ := issued_prepend hparts
  rw [List.length_reverse, ← hstamp] at hfresh
  have hold : ∀ m₀ ∈ m :: past, m₀.Issued σ' m'.session.nextStamp := fun m₀ hm₀ =>
    ⟨fun v hv => Form.Issued.mono ((h m₀ hm₀).values v hv) (by omega) hσ',
      fun f hf => ((h m₀ hm₀).forms f hf).mono (by omega) hσ'⟩
  obtain ⟨hvalue, hform⟩ := hold m List.mem_cons_self
  have hcontrol : ∀ {f}, m.control = .form f → f.Issued σ' m'.session.nextStamp := fun hm =>
    hform _ (.control (by simp [hm, Control.forms]))
  refine ⟨σ', List.forall_mem_cons.2 ⟨⟨fun v hv => ?_, fun f hf => ?_⟩, hold⟩⟩
  · cases hvalues v hv with
    | held hv => exact hvalue v hv
    | plain hv => exact hv.issued
    | literal hm => exact hcontrol hm
    | defined hm => exact issued_procedure fun f hf => (hcontrol hm).child hf
    | fresh => exact hfresh
  · cases hstep.forms f hf with
    | awaited hf => exact hform f hf
    | child hm hf => exact (hcontrol hm).child hf
    | body hp hf => exact (hvalue _ hp).body hf

/-- **The values of a session agree on what stamps say**, those of the past included. -/
theorem issued_of_history (hm : History m past) :
    ∃ σ, ∀ m₀ ∈ m :: past, m₀.Issued σ m.session.nextStamp := by
  have hnil : ∀ {σ n}, Value.nil.Issued σ n := Plain.issued trivial
  have hnone : ∀ {σ n} {f : Form}, f.WithoutCells → f.Issued σ n :=
    fun hf i h t hc => absurd hc (hf i h t)
  induction hm with
  | start henv hfs =>
    refine ⟨fun _ => (.nil, .nil), fun m₀ hm₀ => ?_⟩
    obtain rfl := List.mem_singleton.1 hm₀
    refine ⟨fun v hv => ?_, fun f hf => hnone (hfs f (awaits_start hf))⟩
    rcases holds_start hv with rfl | ⟨name, hv⟩
    · exact hnil
    · exact hnone (henv name v hv)
  | next _ hnext ih =>
    obtain ⟨σ, hσ⟩ := ih
    exact issued_next hnext hσ
  | @again m past fs printed _ _ hfs ih =>
    obtain ⟨σ, hσ⟩ := ih
    refine ⟨σ, List.forall_mem_cons.2 ⟨⟨fun v hv => ?_, fun f hf => ?_⟩, hσ⟩⟩
    · rcases holds_start hv with rfl | ⟨name, hv⟩
      · exact hnil
      · exact (hσ m List.mem_cons_self).values v (.bound trivial hv)
    · exact hnone (hfs f (awaits_start hf))

end Histories

/-- **Equality in a session.** It is symmetric and transitive; it holds of values that are alike,
and of none but those that are alike if two NaNs agree. So the look at stamps matters to no
comparison with a value that has no NaN, and where it matters both values have one and it makes
them equal. -/
theorem equality_in_session {m : Moment} {past : List Moment} (hm : History m past)
    {a b c : Value} (ha : Occurs m past a) (hb : Occurs m past b) (hc : Occurs m past c) :
    (a.same b = true → b.same a = true) ∧
    (a.same b = true → b.same c = true → a.same c = true) ∧
    (a.Alike Number.Equal b → a.same b = true) ∧
    (a.same b = true → a.Alike Number.Similar b) ∧
    (¬ a.HasNaN ∨ ¬ b.HasNaN → (a.same b = true ↔ a.Alike Number.Equal b)) ∧
    (¬ (a.same b = true ↔ a.Alike Number.Equal b) → a.same b = true ∧ a.HasNaN ∧ b.HasNaN) := by
  obtain ⟨σ, hσ⟩ := issued_of_history hm
  have hstamped : ∀ {v}, Occurs m past v → v.Stamped σ := by
    rintro v ⟨m₀, hm₀, w, hw, hpart⟩
    exact (((hσ m₀ hm₀).values w hw).part hpart).stamped
  have hexact : ¬ a.HasNaN ∨ ¬ b.HasNaN → (a.same b = true ↔ a.Alike Number.Equal b) := by
    intro hNaN
    exact ⟨alike_of_same_of_not_hasNaN (hstamped ha) (hstamped hb) hNaN, same_of_alike⟩
  refine ⟨same_symm, same_trans (hstamped ha) (hstamped hb) (hstamped hc), same_of_alike,
    alike_of_same (hstamped ha) (hstamped hb), hexact, fun hdiffer => ?_⟩
  have hboth : a.HasNaN ∧ b.HasNaN := by
    by_contra hnot
    exact hdiffer (hexact (not_and_or.1 hnot))
  refine ⟨?_, hboth⟩
  by_contra hne
  exact hdiffer ⟨fun h => absurd h hne, fun h => same_of_alike h⟩

/-- A list of a string and a NaN. -/
def nanList : Value := .cell 1 (.string "a") (.cell 0 (.number .nan) .nil)

/-- A session over the builtin that makes lists. -/
def listSession : Session := (Session.fresh .empty).define "list" (.builtin .list)

theorem nanList_arises : ∃ m past, History m past ∧ m.control = .value nanList := by
  have hfind : listSession.env.find? "list" = some (.builtin .list) := by
    simp [listSession, Session.define, Environment.find?_define]
  have hstart : History (.start [.apply [.symbol "list", .literal (.string "a"),
      .literal (.number .nan)]] listSession) [] := by
    refine .start (fun name v hv => ?_) fun f hf => ?_
    · have hv : "list" = name ∧ .builtin .list = v := by
        simpa [listSession, Session.define, Session.fresh, Environment.find?_define] using hv
      obtain ⟨-, rfl⟩ := hv
      exact Plain.withoutCells trivial
    · obtain rfl := List.mem_singleton.1 hf
      exact Form.Textual.withoutCells ⟨trivial, trivial, trivial, trivial⟩
  have hlookup := ((hstart.next rfl).next rfl).next (show _ = some ⟨.value (.builtin .list), _, _⟩ by
    simp only [Moment.next, Moment.enter, Moment.resume, Moment.start, hfind]
    rfl)
  exact ⟨_, _, ((((hlookup.next rfl).next rfl).next rfl).next rfl).next rfl, rfl⟩

/-- The list is equal to itself through its stamp alone, and it is so for a NaN. -/
theorem equality_in_session_nanList :
    ∃ m past, History m past ∧ Occurs m past nanList ∧
      nanList.same nanList = true ∧ ¬ nanList.Alike Number.Equal nanList ∧ nanList.HasNaN := by
  obtain ⟨m, past, hm, hcontrol⟩ := nanList_arises
  have hlist : Occurs m past nanList :=
    ⟨m, List.mem_cons_self, nanList, .control (by simp [hcontrol, Control.values]), .refl⟩
  have hdiffer : ¬ nanList.Alike Number.Equal nanList := by
    intro h
    cases h with
    | shared h => exact h
    | cell _ htail =>
      cases htail with
      | shared h => exact h
      | cell hhead _ =>
        cases hhead with
        | number h => exact absurd h (by simp [Number.equal_iff]; decide)
  have hsame : nanList.same nanList = true := by simp [nanList, same, Atom.same]
  obtain ⟨-, -, -, -, -, hNaN⟩ := equality_in_session hm hlist hlist hlist
  exact ⟨m, past, hm, hlist, hsame, hdiffer, (hNaN fun h => hdiffer (h.1 hsame)).2.1⟩

end FlatLisp
