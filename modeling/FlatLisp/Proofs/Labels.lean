import FlatLisp.Proofs.Buffers
import FlatLisp.Proofs.DotLanguage
import FlatLisp.Proofs.Drawing

/-!
# Labels

A label stands between quotes. Strings are escaped in labels, so whatever is in a string does not
end the label. Names stand in labels as they are, and a quote or a backslash in a name has the
meaning there that it has in a quoted string (`Form.NamesFit`). So do the texts of values that the
reader makes no literals of, such as lists.

* `Value.Textual.closed_label`: **the labels of strings and numbers end at their quotes.**
* `Form.closed_label_iff`: which other labels do.
* `Outline.labels_close`: the labels of a program end at their quotes as far as its names fit, and
  then its drawing is a digraph.
-/

namespace FlatLisp

open Dot (Closed Contained IsDigraph IsLine Inside Scans)

/-! ## Literals -/

theorem run_pieces (ps : List Quoted.Piece) :
    Inside.plain.run (ps.flatMap Quoted.Piece.text) = some .plain := by
  induction ps with
  | nil => rfl
  | cons p ps ih =>
    have hplain : ∀ {cs : List Char}, (∀ c ∈ cs, Quoted.IsPlain c) →
        Inside.plain.run cs = some .plain := fun h => Inside.run_plain fun c hc =>
      ⟨(h c hc).1, (h c hc).2.1⟩
    have hp : Inside.plain.run p.text = some .plain := by
      rcases p.text_cases with ⟨c, h, rfl⟩ | ⟨c, cs, htext, -, hcs⟩
      · exact hplain fun d hd => List.mem_singleton.1 hd ▸ h
      · have hescape : Inside.plain.run ('\\' :: c :: cs) = Inside.plain.run cs := rfl
        rw [htext, hescape, hplain hcs]
    rw [List.flatMap_cons, Inside.run_append, hp, Option.bind_some, ih]

/-- **The text of a string does not end its label**, nor protect the quote behind it. -/
theorem closed_string (s : String) : Closed (Value.string s).label.toList := by
  obtain ⟨ps, hps, -⟩ := Quoted.encode_pieces s
  have hquote : Inside.plain.run ['\\', '"'] = some .plain := rfl
  have hlabel : (Value.string s).label.toList =
      ['\\', '"'] ++ (ps.flatMap Quoted.Piece.text ++ ['\\', '"']) := by
    simp [Value.label, hps]
  rw [Closed, hlabel, Inside.run_append, hquote, Option.bind_some, Inside.run_append, run_pieces,
    Option.bind_some, hquote]

theorem closed_number (x : Number) : Closed x.text.toList := by
  by_cases hf : x.isFinite = true
  · refine Inside.run_plain fun c hc => ?_
    have hnumeral := Number.numeralChar_of_mem_text hf hc
    exact ⟨hnumeral.ne_quote, hnumeral.ne_backslash⟩
  · have hrank : ¬x.rank < Number.infinityRank := by simpa [Number.isFinite] using hf
    rcases (Nat.not_lt.1 hrank).lt_or_eq with hnan | hinf
    · have hnan : x.isNaN = true := decide_eq_true hnan
      rw [Number.text, if_pos hnan]
      rfl
    · have hnan : x.isNaN = false := decide_eq_false (by omega)
      have hinf : x.isInfinite = true := decide_eq_true hinf.symm
      rw [Number.text, if_neg (ne_true_of_eq_false hnan), if_pos hinf]
      cases x.negative <;> rfl

/-- **The labels of strings and numbers end at their quotes.** -/
theorem Value.Textual.closed_label : ∀ {v : Value}, v.Textual → Closed v.label.toList
  | .number x, _ => by simpa [Value.label, Value.text, Value.write, Atom.text] using closed_number x
  | .string s, _ => closed_string s

/-- Other values are drawn with their text. -/
theorem Value.label_eq_text {v : Value} (h : ¬ v.Textual) : v.label = v.text := by
  unfold Value.label
  split
  · exact absurd trivial h
  · rfl

namespace Form

/-! ## Names -/

/-- The names in the label of a form do not end it. If a name is the end of the label then it does
not protect the quote behind it either. A literal that is neither a number nor a string counts as
the name that its text is. -/
def NamesFit : Form → Prop
  | .literal v => v.Textual ∨ Closed v.text.toList
  | .symbol name => Closed name.toList
  | .assign target _ => Closed target.toList
  | .define name params _ => ∀ n ∈ name :: params, Contained n.toList
  | _ => True

/-- The names in the label of a form, and the texts that stand there like names. -/
def labelNames : Form → List String
  | .literal (.number _) | .literal (.string _) => []
  | .literal v => [v.text]
  | .symbol name => [name]
  | .assign target _ => [target]
  | .define name params _ => name :: params
  | _ => []

theorem labelNames_literal (v : Value) : v.Textual ∧ labelNames (.literal v) = [] ∨
    ¬ v.Textual ∧ labelNames (.literal v) = [v.text] := by
  unfold Value.Textual labelNames
  cases v with
  | atom a => cases a <;> simp
  | cell => simp

/-- Names without backslashes fit if they have no quotes. -/
theorem namesFit_iff {f : Form} (h : ∀ name ∈ f.labelNames, '\\' ∉ name.toList) :
    f.NamesFit ↔ ∀ name ∈ f.labelNames, '"' ∉ name.toList := by
  cases f with
  | literal v =>
    rcases labelNames_literal v with ⟨hv, hnames⟩ | ⟨hv, hnames⟩
    · rw [hnames]
      exact iff_of_true (.inl hv) nofun
    · rw [hnames] at h ⊢
      simpa [NamesFit, hv] using Dot.closed_iff_of_notMem (h v.text List.mem_cons_self)
  | symbol name =>
    simpa [labelNames, NamesFit] using Dot.closed_iff_of_notMem (h name List.mem_cons_self)
  | assign target _ =>
    simpa [labelNames, NamesFit] using Dot.closed_iff_of_notMem (h target List.mem_cons_self)
  | define name params _ =>
    exact forall₂_congr fun n hn => Dot.contained_iff_of_notMem (h n hn)
  | _ => exact iff_of_true trivial nofun

theorem contained_intercalate (ps : List (List Char)) :
    Contained ([' '].intercalate ps) ↔ ∀ p ∈ ps, Contained p := by
  induction ps with
  | nil => exact iff_of_true rfl nofun
  | cons p ps ih =>
    rcases eq_or_ne ps [] with rfl | hne
    · simp
    · rw [List.intercalate_cons_of_ne_nil hne, List.append_assoc, List.singleton_append, Contained,
        Inside.run_through (by decide), List.forall_mem_cons, ← ih, Contained, Contained]
      cases Inside.plain.run p <;> simp

/-- **The label of a form ends at its quote** if and only if its names fit. -/
theorem closed_label_iff (f : Form) : Closed f.label.toList ↔ f.NamesFit := by
  cases f with
  | literal v =>
    by_cases hv : v.Textual
    · exact iff_of_true hv.closed_label (.inl hv)
    · simp [NamesFit, hv, label, Value.label_eq_text hv]
  | symbol name => exact Iff.rfl
  | assign target value =>
    have hset : Inside.plain.run "set ".toList = some .plain := rfl
    rw [label, String.toList_append, Closed, Inside.run_append, hset, Option.bind_some]
    exact Iff.rfl
  | define name params body =>
    have hlabel : (label (.define name params body)).toList = "defn ".toList ++ (name.toList ++
        ' ' :: '(' :: ([' '].intercalate (params.map String.toList) ++ [')'])) := by
      simp [label, String.toList_intercalate]
    have hdefn : Inside.plain.run "defn ".toList = some .plain := rfl
    have hparen : ∀ cs, Inside.plain.run ('(' :: cs) = Inside.plain.run cs := fun _ => rfl
    rw [Closed, hlabel, Inside.run_append, hdefn, Option.bind_some, Inside.run_through (by decide),
      hparen, Inside.run_through (by decide), NamesFit, List.forall_mem_cons]
    have hparams := contained_intercalate (params.map String.toList)
    rw [List.forall_mem_map] at hparams
    rw [← hparams, Contained, Contained]
    cases Inside.plain.run name.toList <;>
      cases Inside.plain.run ([' '].intercalate (params.map String.toList)) <;> simp [Inside.run]
  | apply items => exact iff_of_true rfl trivial
  | branch test yes no => exact iff_of_true (by rw [label]; decide) trivial
  | whileLoop test body => exact iff_of_true (by rw [label]; decide) trivial
  | forLoop start test step body => exact iff_of_true (by rw [label]; decide) trivial

end Form

namespace Outline

open Form

variable {fs : List Form} {n : Nat} {style : NodeStyle} {label : String}

/-! ## Lines -/

theorem toLower_of_isDigit {c : Char} (h : c.isDigit = true) : c.toLower = c := by
  rw [Char.isDigit, Bool.and_eq_true, decide_eq_true_eq, decide_eq_true_eq] at h
  refine dif_neg fun hupper => ?_
  exact absurd (UInt32.le_trans hupper.1 h.2) (by decide)

theorem isAlphanum_of_mem_nodeName {c : Char} (h : c ∈ (nodeName n).toList) :
    c.isAlphanum = true := by
  have hnode : ∀ c ∈ "node".toList, c.isAlphanum = true := by simp
  rw [toList_nodeName, List.mem_append] at h
  rcases h with h | h
  · exact hnode c h
  · rw [Char.isAlphanum, Decimal.isDigit_of_mem_digits h, Bool.or_true]

theorem exists_nodeName (n : Nat) : ∃ cs, (nodeName n).toList = 'n' :: cs :=
  ⟨_, toList_nodeName n⟩

theorem word?_nodeName (n : Nat) : Dot.word? (nodeName n).toList = some .id := by
  have hkeyword : String.ofList ((nodeName n).toList.map Char.toLower) ∉ Dot.keywords := by
    intro hmem
    -- there is a digit in the name, but in no keyword
    have hletters : ∀ k ∈ Dot.keywords, ∀ c ∈ k.toList, c.isDigit = false := by
      simp [Dot.keywords]
    obtain ⟨d, ds, hds⟩ := List.exists_cons_of_ne_nil (Decimal.digits_ne_nil n)
    have hd : d.isDigit = true := Decimal.isDigit_of_mem_digits (hds ▸ List.mem_cons_self)
    refine absurd (hletters _ hmem d ?_) (by rw [hd]; decide)
    rw [String.toList_ofList, toList_nodeName, hds, List.map_append, List.map_cons,
      toLower_of_isDigit hd]
    simp
  have hidentifier : Dot.isIdentifier (nodeName n).toList = true := by
    obtain ⟨cs, hcs⟩ := exists_nodeName n
    have hrest : ∀ c ∈ cs, (c.isAlphanum || decide (c = '_')) = true := fun c hc => by
      rw [isAlphanum_of_mem_nodeName (hcs ▸ List.mem_cons_of_mem 'n' hc), Bool.true_or]
    rw [hcs]
    exact Bool.and_eq_true_iff.2 ⟨rfl, List.all_eq_true.2 hrest⟩
  rw [Dot.word?, if_neg hkeyword, hidentifier]
  rfl

/-- The name of a node ends in front of a character between tokens. -/
theorem scans_nodeName (n : Nat) {c : Char} {ts : List Dot.Token} {m : Dot.Mode}
    (hc : Dot.isWordChar c = false) (hstart : Dot.start c = some (ts, m)) :
    Scans .between ((nodeName n).toList ++ [c]) (.id :: ts) m := by
  have hname : Scans .between (nodeName n).toList [] (.word (nodeName n).toList) := by
    obtain ⟨cs, hcs⟩ := exists_nodeName n
    have hrest : ∀ c ∈ cs, Dot.isWordChar c = true := fun c hc => by
      rw [Dot.isWordChar, isAlphanum_of_mem_nodeName (hcs ▸ List.mem_cons_of_mem 'n' hc),
        Bool.true_or, Bool.true_or]
    have hfirst : Scans .between ['n'] [] (.word ['n']) := by decide
    rw [hcs]
    exact hfirst.append (.word hrest ['n'])
  have hend : Scans (.word (nodeName n).toList) [c] (.id :: ts) m := by
    have hnext : (Dot.Mode.word (nodeName n).toList).next c = some (.id :: ts, m) := by
      rw [Dot.Mode.next, hc, if_neg (by decide), word?_nodeName, Option.bind_some, hstart]
      rfl
    rw [Scans, Dot.scan, hnext, Option.bind_some, Dot.scan, Option.map_some, List.append_nil]
  exact hname.append hend

theorem scans_nodeName_blank (n : Nat) :
    Scans .between ((nodeName n).toList ++ [' ']) [.id] .between :=
  scans_nodeName n (by decide) rfl

theorem scans_nodeName_end (n : Nat) :
    Scans .between ((nodeName n).toList ++ [';']) [.id, .mark ';'] .between :=
  scans_nodeName n (by decide) rfl

theorem isLine_edge (parent child : Nat) : IsLine (edgeLine parent child) := by
  refine Dot.Statement.line (.edge .nil) ?_
  have hline : (edgeLine parent child).toList = (nodeName parent).toList ++ [' '] ++
      ['-', '>', ' '] ++ ((nodeName child).toList ++ [';']) := by
    simp [edgeLine]
  have harrow : Scans .between ['-', '>', ' '] [.arrow] .between := by decide
  rw [hline]
  exact ((scans_nodeName_blank parent).append harrow).append (scans_nodeName_end child)

/-- The line that declares a node is a statement if its label is closed. -/
theorem isLine_node (h : Closed label.toList) : IsLine (nodeLine n style label) := by
  have hname : Scans .between ((nodeName n).toList ++ [' ']) [.id] .between :=
    scans_nodeName_blank n
  have hlabel : Scans (.quoted .plain) label.toList [] (.quoted .plain) := .quoted h
  have hback : Scans (.quoted .plain) ['"', ']', ';'] [.id, .mark ']', .mark ';'] .between := by
    decide
  cases style with
  | plain =>
    have hline : (nodeLine n .plain label).toList =
        (nodeName n).toList ++ [' '] ++ "[label=\"".toList ++ label.toList ++ ['"', ']', ';'] := by
      simp [nodeLine]
    have hfront : Scans .between "[label=\"".toList
        [.mark '[', .id, .mark '='] (.quoted .plain) := by decide
    refine Dot.Statement.line (.node Dot.Attributes.one.list) ?_
    rw [hline]
    exact ((hname.append hfront).append hlabel).append hback
  | box =>
    have hline : (nodeLine n .box label).toList = (nodeName n).toList ++ [' '] ++
        "[shape=box, label=\"".toList ++ label.toList ++ ['"', ']', ';'] := by
      simp [nodeLine]
    have hfront : Scans .between "[shape=box, label=\"".toList
        [.mark '[', .id, .mark '=', .id, .mark ',', .id, .mark '='] (.quoted .plain) := by decide
    refine Dot.Statement.line (.node (Dot.Attributes.one.cons).list) ?_
    rw [hline]
    exact ((hname.append hfront).append hlabel).append hback
  | dot =>
    have hline : (nodeLine n .dot label).toList = (nodeName n).toList ++ [' '] ++
        "[shape=circle, label=\"\", height=.2, width=.2];".toList := by
      simp [nodeLine]
    have hback : Scans .between "[shape=circle, label=\"\", height=.2, width=.2];".toList
        [.mark '[', .id, .mark '=', .id, .mark ',', .id, .mark '=', .id, .mark ',', .id, .mark '=',
          .id, .mark ',', .id, .mark '=', .id, .mark ']', .mark ';'] .between := by decide
    refine Dot.Statement.line (.node (Dot.Attributes.one.cons.cons.cons).list) ?_
    rw [hline]
    exact hname.append hback

theorem isLine_of_mem_settings : ∀ line ∈ settings, IsLine line := by
  have hone : ∀ line word : String, word ∈ ["graph", "node", "edge"] →
      Scans .between line.toList
        [.keyword word, .mark '[', .id, .mark '=', .id, .mark ']', .mark ';'] .between →
      IsLine line := fun line word hword hscan =>
    Dot.Statement.line (.settings hword (by simp) Dot.Attributes.one.list) hscan
  simp only [settings, List.forall_mem_cons]
  exact ⟨⟨[], rfl, .nil⟩, hone _ "graph" (by decide) (by decide),
    hone _ "node" (by decide) (by decide), hone _ "edge" (by decide) (by decide), nofun⟩

/-! ## Drawings -/

/-- What stands in front of the label of a node. -/
def opening (n : Nat) : NodeStyle → String
  | .plain => nodeName n ++ " [label="
  | .box => nodeName n ++ " [shape=box, label="
  | .dot => nodeName n ++ " [shape=circle, label="

/-- What stands behind the label of a node. -/
def closing : NodeStyle → String
  | .dot => ", height=.2, width=.2];"
  | _ => "];"

theorem nodeLine_eq (n : Nat) (f : Form) : nodeLine n f.style f.label =
    opening n f.style ++ "\"" ++ f.label ++ "\"" ++ closing f.style := by
  refine String.toList_injective ?_
  cases f <;> simp [nodeLine, opening, closing, style, label]

/-- **If the names fit the drawing is a digraph.** -/
theorem isDigraph_graph (h : ∀ f ∈ fs.flatMap Form.nodes, f.NamesFit) :
    IsDigraph (graph (outlines fs)) := by
  have hsaying : ∀ s ∈ saying fs, IsLine s.line := by
    intro s hs
    cases s with
    | node n style label =>
      obtain ⟨f, hf, rfl, rfl⟩ := node_mem_saying.1 hs
      exact isLine_node (f.closed_label_iff.2 (h f hf.mem_nodes))
    | edge parent child => exact isLine_edge parent child
  rw [graph_outlines]
  refine Dot.isDigraph_of_lines fun line hline => ?_
  rcases List.mem_append.1 hline with hline | hline
  · exact isLine_of_mem_settings line hline
  · obtain ⟨s, hs, rfl⟩ := List.mem_map.1 hline
    exact hsaying s hs

/-- A name is a program. -/
theorem readForms_name {name : String} (hn : IsName name) : readForms name = .ok [.symbol name] :=
  readForms_iff_writes.2 ⟨⟨trivial, trivial⟩, .spelled hn.spelled⟩

/-- **The label of a node ends at the quote behind it** if and only if the names in it fit, and with
names that fit a drawing is a digraph. What is in a string does no harm. Names without backslashes
fit if they have no quotes; each one that does not fit is a program whose label is misread. -/
theorem labels_close (fs : List Form) :
    (∀ n f, Numbered 0 fs n f →
      nodeLine n f.style f.label ∈ forestLines 0 (outlines fs) ∧
      nodeLine n f.style f.label =
        opening n f.style ++ "\"" ++ f.label ++ "\"" ++ closing f.style ∧
      (∀ rest, Dot.unquote .plain (f.label.toList ++ '"' :: rest) = some (f.label.toList, rest) ↔
        f.NamesFit) ∧
      ((∀ name ∈ f.labelNames, '\\' ∉ name.toList) →
        (f.NamesFit ↔ ∀ name ∈ f.labelNames, '"' ∉ name.toList))) ∧
    ((∀ f ∈ fs.flatMap Form.nodes, f.NamesFit) → IsDigraph (graph (outlines fs))) ∧
    ∀ name, IsName name → ¬Closed name.toList → readForms name = .ok [.symbol name] ∧
      ∀ rest, Dot.unquote .plain (name.toList ++ '"' :: rest) ≠ some (name.toList, rest) := by
  refine ⟨fun n f hf => ⟨?_, nodeLine_eq n f, fun rest => ?_, namesFit_iff⟩, isDigraph_graph,
    fun name hn hc => ⟨readForms_name hn, fun rest => mt (Dot.unquote_iff _ rest).1 hc⟩⟩
  · rw [outlines_eq, forestLines_eq]
    exact List.mem_map_of_mem (node_mem_saying.2 ⟨f, hf, rfl, rfl⟩)
  · exact (Dot.unquote_iff _ rest).trans f.closed_label_iff

/-- A string of a quote and a backslash. -/
theorem labels_close_string :
    (∀ rest, Dot.unquote .plain ((Form.literal (.string "\"\\")).label.toList ++ '"' :: rest) =
      some ((Form.literal (.string "\"\\")).label.toList, rest)) ∧
    IsDigraph (graph (outlines [.assign "x" (.literal (.string "\"\\"))])) := by
  obtain ⟨hlabels, hgraph, -⟩ := labels_close [.assign "x" (.literal (.string "\"\\"))]
  have hnumber : Numbered 0 [.assign "x" (.literal (.string "\"\\"))] 1
      (.literal (.string "\"\\")) := .inside [] (.head 1 _ [])
  have hfit : ∀ f ∈ [assign "x" (.literal (.string "\"\\"))].flatMap Form.nodes, f.NamesFit := by
    have hname : Closed "x".toList := by decide
    simpa [nodes_eq, children, NamesFit, Value.Textual] using hname
  exact ⟨fun rest => ((hlabels 1 _ hnumber).2.2.1 rest).2 (.inl trivial), hgraph hfit⟩

theorem isName_quote : IsName "a\"b" :=
  ⟨by simp, fun k => by cases k <;> simp [Keyword.word], by decide, by simp,
    by simp [isDelimiter, isSeparator]⟩

theorem isName_backslash : IsName "a\\" :=
  ⟨by simp, fun k => by cases k <;> simp [Keyword.word], by decide, by simp,
    by simp [isDelimiter, isSeparator]⟩

/-- A quote in a name ends the label, and the drawing is no digraph. A backslash at the end of a
name protects the quote behind it. -/
theorem label_misread :
    (readForms "a\"b" = .ok [.symbol "a\"b"] ∧
      Dot.unquote .plain "a\"b\"];".toList = some (['a'], "b\"];".toList) ∧
      ¬IsDigraph (graph (outlines [.symbol "a\"b"]))) ∧
    readForms "a\\" = .ok [.symbol "a\\"] ∧
      Dot.unquote .plain "a\\\"];\n\x7d".toList = none ∧
      ¬IsDigraph (graph (outlines [.symbol "a\\"])) := by
  -- both texts end inside of a quoted string
  have hopen : ∀ f : Form, (Dot.scan .between (['\n'].intercalate
      ((frame (forestLines 0 (outlines [f]))).map String.toList) ++ ['\n'])).map Prod.snd =
        some (.quoted .plain) → ¬IsDigraph (graph (outlines [f])) := by
    rintro f hmode ⟨ts, hts, -⟩
    have htext : (graph (outlines [f])).toList =
        ['\n'].intercalate ((frame (forestLines 0 (outlines [f]))).map String.toList) :=
      String.toList_intercalate
    rw [Dot.Tokens, htext] at hts
    rw [hts] at hmode
    cases hmode
  exact ⟨⟨readForms_name isName_quote, by decide, hopen _ (by decide +kernel)⟩,
    readForms_name isName_backslash, by decide, hopen _ (by decide +kernel)⟩

end Outline

end FlatLisp
