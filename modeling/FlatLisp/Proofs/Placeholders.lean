import FlatLisp.Proofs.Filling
import Mathlib.Data.List.Find
import Mathlib.Data.List.Nodup

/-!
# Placeholders

One pass over a template puts the text of a key in the place of every placeholder of it, and copies
what is between (`Template.pass`). Keys without a percent sign and a closing brace
(`Template.IsKey`) have placeholders that stand apart: none ends inside of another one. So a
template is cut at the placeholders of one key, and a pass for the other keys can be looked at
piece by piece.

* `Template.pass_intercalate`: a pass goes on between the placeholders of a key.
* `Template.pass_cons`: **a pass for one more key** puts its text between the pieces.
* `Template.pass_perm`: the order of the keys does not matter.
-/

namespace FlatLisp

namespace Template

variable {key key' text : String} {piece rest cs : List Char} {texts : List (String × String)}

/-! ## Keys -/

/-- The placeholder of the key does not look like the start or the end of another one. -/
structure IsKey (key : String) : Prop where
  percent : '%' ∉ key.toList
  close : '\x7d' ∉ key.toList

instance (key : String) : Decidable (IsKey key) :=
  decidable_of_iff ('%' ∉ key.toList ∧ '\x7d' ∉ key.toList)
    ⟨fun h => ⟨h.1, h.2⟩, fun h => ⟨h.percent, h.close⟩⟩

/-- An occurrence of a placeholder does not end inside of a placeholder. -/
theorem IsKey.apart (hkey : IsKey key) (hne : piece ≠ [])
    (h : (placeholder key).toList <+: piece ++ ((placeholder key').toList ++ rest)) :
    (placeholder key).toList <+: piece := by
  rcases Nat.le_total (placeholder key).toList.length piece.length with hle | hle
  · exact List.prefix_of_prefix_length_le h (List.prefix_append _ _) hle
  · obtain ⟨back, hback⟩ := List.prefix_of_prefix_length_le (List.prefix_append _ _) h hle
    cases back with
    | nil =>
      rw [List.append_nil] at hback
      rw [hback]
    | cons d back =>
      -- the percent sign of the second one would be inside of the first one
      rw [← hback, List.prefix_append_right_inj, toList_placeholder key', List.cons_append,
        List.cons_prefix_cons] at h
      obtain ⟨c, piece, rfl⟩ := List.exists_cons_of_ne_nil hne
      rw [toList_placeholder key, List.cons_append, List.cons.injEq] at hback
      have hmem : '%' ∈ '\x7b' :: (key.toList ++ ['\x7d']) := by
        rw [← hback.2, ← h.1]
        exact List.mem_append_right _ List.mem_cons_self
      simp [hkey.percent] at hmem

theorem IsKey.eq_of_starts (hkey : IsKey key) (hkey' : IsKey key')
    (h : (placeholder key).toList <+: (placeholder key').toList ++ rest) : key = key' := by
  obtain ⟨back, hback⟩ := h
  have hspan : ∀ k : String, IsKey k → ∀ cs,
      (k.toList ++ '\x7d' :: cs).takeWhile (· ≠ '\x7d') = k.toList := by
    intro k hk cs
    refine (span_append (fun c hc => ?_) (by simp)).1
    exact decide_eq_true fun heq => hk.close (heq ▸ hc)
  have hkeys : key.toList ++ '\x7d' :: back = key'.toList ++ '\x7d' :: rest := by
    simpa [toList_placeholder] using hback
  refine String.toList_injective ?_
  rw [← hspan key hkey back, hkeys, hspan key' hkey' rest]

/-- Keys that are different, with their texts. -/
structure Distinct (texts : List (String × String)) : Prop where
  isKey : ∀ p ∈ texts, IsKey p.1
  nodup : (texts.map Prod.fst).Nodup

theorem Distinct.perm {texts' : List (String × String)} (h : Distinct texts)
    (hperm : texts.Perm texts') : Distinct texts' :=
  ⟨fun p hp => h.isKey p (hperm.mem_iff.2 hp), (hperm.map Prod.fst).nodup_iff.1 h.nodup⟩

theorem Distinct.tail {p : String × String} (h : Distinct (p :: texts)) : Distinct texts :=
  ⟨fun q hq => h.isKey q (List.mem_cons_of_mem _ hq), (List.nodup_cons.1 h.nodup).2⟩

theorem Distinct.notMem (h : Distinct ((key, text) :: texts)) : key ∉ texts.map Prod.fst :=
  (List.nodup_cons.1 h.nodup).1

/-! ## One pass -/

/-- The key whose placeholder stands here, with its text. -/
def here? (texts : List (String × String)) (cs : List Char) : Option (String × String) :=
  texts.find? fun p => (placeholder p.1).toList.isPrefixOf cs

/-- Puts the texts in the place of the placeholders. `skip` counts the characters of the last
placeholder that are still ahead. -/
def passFrom (texts : List (String × String)) : Nat → List Char → List Char
  | _, [] => []
  | skip + 1, _ :: cs => passFrom texts skip cs
  | 0, c :: cs =>
    match here? texts (c :: cs) with
    | some (key, text) => text.toList ++ passFrom texts ((placeholder key).toList.length - 1) cs
    | none => c :: passFrom texts 0 cs

/-- A template in which, in one pass from left to right, every placeholder of one of the keys is
replaced by the text of that key, and all other characters are copied. -/
def pass (texts : List (String × String)) (template : List Char) : List Char :=
  passFrom texts 0 template

theorem here?_some {p : String × String} (h : here? texts cs = some p) :
    p ∈ texts ∧ (placeholder p.1).toList <+: cs :=
  ⟨List.mem_of_find?_eq_some h, List.isPrefixOf_iff_prefix.1 (by simpa using List.find?_some h)⟩

theorem here?_placeholder (h : Distinct texts) (hmem : (key, text) ∈ texts) (rest : List Char) :
    here? texts ((placeholder key).toList ++ rest) = some (key, text) := by
  have hstart : (placeholder key).toList.isPrefixOf ((placeholder key).toList ++ rest) = true :=
    List.isPrefixOf_iff_prefix.2 (List.prefix_append _ _)
  cases hfind : here? texts ((placeholder key).toList ++ rest) with
  | none => exact absurd hstart (by simpa using List.find?_eq_none.1 hfind _ hmem)
  | some p =>
    obtain ⟨hpmem, hp⟩ := here?_some hfind
    have heq : p.1 = key := (h.isKey _ hpmem).eq_of_starts (h.isKey _ hmem) hp
    rw [List.inj_on_of_nodup_map h.nodup hpmem hmem heq]

theorem here?_other (hkeys : ∀ p ∈ texts, IsKey p.1) (hkey : IsKey key)
    (hnot : key ∉ texts.map Prod.fst) (rest : List Char) :
    here? texts ((placeholder key).toList ++ rest) = none := by
  refine List.find?_eq_none.2 fun p hp hstart => hnot ?_
  rw [← (hkeys p hp).eq_of_starts hkey (List.isPrefixOf_iff_prefix.1 hstart)]
  exact List.mem_map_of_mem hp

theorem here?_perm {texts' : List (String × String)} (h : Distinct texts)
    (hperm : texts.Perm texts') (cs : List Char) : here? texts cs = here? texts' cs := by
  cases hfind : here? texts cs with
  | none =>
    exact (List.find?_eq_none.2 fun p hp => List.find?_eq_none.1 hfind p (hperm.mem_iff.2 hp)).symm
  | some p =>
    obtain ⟨hmem, rest, rfl⟩ := here?_some hfind
    exact (here?_placeholder (h.perm hperm) (hperm.mem_iff.1 hmem) rest).symm

/-- What stands behind the start of a placeholder does not matter for one in front of it. -/
theorem here?_append (hkeys : ∀ p ∈ texts, IsKey p.1) (hne : piece ≠ []) (key : String)
    (rest : List Char) : here? texts (piece ++ ((placeholder key).toList ++ rest)) =
      here? texts piece := by
  refine List.find?_congr fun p hp => Bool.eq_iff_iff.2 ?_
  rw [List.isPrefixOf_iff_prefix, List.isPrefixOf_iff_prefix]
  exact ⟨(hkeys p hp).apart hne, fun h => h.trans (List.prefix_append _ _)⟩

theorem passFrom_drop (texts : List (String × String)) (skip : Nat) (cs : List Char) :
    passFrom texts skip cs = pass texts (cs.drop skip) := by
  induction cs generalizing skip with
  | nil => cases skip <;> simp [pass, passFrom]
  | cons c cs ih =>
    cases skip with
    | zero => rfl
    | succ skip => rw [passFrom, ih, List.drop_succ_cons]

/-- Without keys there is nothing to fill in. -/
theorem pass_empty (cs : List Char) : pass [] cs = cs := by
  induction cs with
  | nil => rfl
  | cons c cs ih => exact congrArg (c :: ·) ih

theorem pass_of_none {c : Char} (h : here? texts (c :: cs) = none) :
    pass texts (c :: cs) = c :: pass texts cs := by
  rw [pass, passFrom, h]
  rfl

theorem pass_of_some {p : String × String}
    (h : here? texts ((placeholder p.1).toList ++ rest) = some p) :
    pass texts ((placeholder p.1).toList ++ rest) = p.2.toList ++ pass texts rest := by
  rw [toList_placeholder, List.cons_append] at h ⊢
  rw [pass, passFrom, h]
  dsimp only
  rw [passFrom_drop, toList_placeholder, List.length_cons, Nat.add_sub_cancel, List.drop_left]

/-- A pass goes on behind a character that is copied, and behind a placeholder. -/
theorem pass_induction (texts : List (String × String)) {motive : List Char → Prop}
    (nil : motive [])
    (copied : ∀ c cs, here? texts (c :: cs) = none → motive cs → motive (c :: cs))
    (found : ∀ p rest, here? texts ((placeholder p.1).toList ++ rest) = some p → motive rest →
      motive ((placeholder p.1).toList ++ rest)) (cs : List Char) : motive cs := by
  induction hlength : cs.length using Nat.strong_induction_on generalizing cs with
  | h n ih =>
    cases cs with
    | nil => exact nil
    | cons c cs =>
      rw [List.length_cons] at hlength
      cases hhere : here? texts (c :: cs) with
      | none => exact copied c cs hhere (ih _ (by omega) cs rfl)
      | some p =>
        obtain ⟨-, rest, hrest⟩ := here?_some hhere
        have hshort := congrArg List.length hrest
        rw [List.length_append, toList_placeholder, List.length_cons, List.length_cons,
          List.length_cons] at hshort
        rw [← hrest] at hhere ⊢
        exact found p rest hhere (ih _ (by omega) rest rfl)

/-- Without a percent sign there is nothing to fill in. -/
theorem pass_append_of_notMem (hpercent : '%' ∉ piece) (rest : List Char) :
    pass texts (piece ++ rest) = piece ++ pass texts rest := by
  induction piece with
  | nil => rfl
  | cons c piece ih =>
    obtain ⟨hc, hpiece⟩ := not_or.1 (mt List.mem_cons.2 hpercent)
    have hhere : here? texts (c :: (piece ++ rest)) = none := by
      refine List.find?_eq_none.2 fun p _ hstart => hc ?_
      rw [List.isPrefixOf_iff_prefix, toList_placeholder, List.cons_prefix_cons] at hstart
      exact hstart.1
    rw [List.cons_append, pass_of_none hhere, ih hpiece, List.cons_append]

/-- A placeholder of one of the keys. -/
theorem pass_placeholder (h : Distinct texts) (hmem : (key, text) ∈ texts) (rest : List Char) :
    pass texts ((placeholder key).toList ++ rest) = text.toList ++ pass texts rest :=
  pass_of_some (p := (key, text)) (here?_placeholder h hmem rest)

/-- A placeholder of another key. -/
theorem pass_other (hkeys : ∀ p ∈ texts, IsKey p.1) (hkey : IsKey key)
    (hnot : key ∉ texts.map Prod.fst) (rest : List Char) :
    pass texts ((placeholder key).toList ++ rest) = (placeholder key).toList ++ pass texts rest := by
  have hhere := here?_other hkeys hkey hnot rest
  have hpercent : '%' ∉ '\x7b' :: (key.toList ++ ['\x7d']) := by simp [hkey.percent]
  rw [toList_placeholder, List.cons_append] at hhere ⊢
  rw [pass_of_none hhere, pass_append_of_notMem hpercent, List.cons_append, List.cons_append,
    List.cons_append]

theorem pass_append (hkeys : ∀ p ∈ texts, IsKey p.1) (piece : List Char) (key : String)
    (rest : List Char) : pass texts (piece ++ ((placeholder key).toList ++ rest)) =
      pass texts piece ++ pass texts ((placeholder key).toList ++ rest) := by
  induction piece using pass_induction texts with
  | nil => rfl
  | copied c piece hhere ih =>
    have hhere' := here?_append hkeys (List.cons_ne_nil c piece) key rest
    rw [hhere, List.cons_append] at hhere'
    rw [List.cons_append, pass_of_none hhere', pass_of_none hhere, ih, List.cons_append]
  | found p piece hhere ih =>
    have hne : (placeholder p.1).toList ++ piece ≠ [] := by simp [toList_placeholder]
    have hhere' := here?_append hkeys hne key rest
    rw [hhere, List.append_assoc] at hhere'
    rw [List.append_assoc, pass_of_some hhere', pass_of_some hhere, ih, List.append_assoc]

/-- A pass goes on between the placeholders of a key. -/
theorem pass_intercalate (hkeys : ∀ p ∈ texts, IsKey p.1) {separator : List Char}
    (hseparator : ∀ rest, pass texts ((placeholder key).toList ++ rest) =
      separator ++ pass texts rest) (pieces : List (List Char)) :
    pass texts ((placeholder key).toList.intercalate pieces) =
      separator.intercalate (pieces.map (pass texts)) := by
  induction pieces with
  | nil => rfl
  | cons piece pieces ih =>
    rcases eq_or_ne pieces [] with rfl | hne
    · simp
    · rw [List.intercalate_cons_of_ne_nil hne, List.append_assoc, pass_append hkeys, hseparator, ih,
        List.map_cons, List.intercalate_cons_of_ne_nil (mt List.map_eq_nil_iff.1 hne),
        List.append_assoc]

/-- A key without a placeholder is not filled in. -/
theorem pass_cons_of_not_infix (h : ¬(placeholder key).toList <:+: cs) :
    pass ((key, text) :: texts) cs = pass texts cs := by
  -- at no place of the template there is a placeholder of the key
  have hhere : ∀ {cs : List Char}, ¬(placeholder key).toList <:+: cs →
      here? ((key, text) :: texts) cs = here? texts cs := fun hfree =>
    List.find?_cons_of_neg (mt List.isPrefixOf_iff_prefix.1 (mt List.IsPrefix.isInfix hfree))
  induction cs using pass_induction texts with
  | nil => rfl
  | copied c cs hnone ih =>
    have hcs : ¬(placeholder key).toList <:+: cs := (not_or.1 (mt List.infix_cons_iff.2 h)).2
    rw [pass_of_none ((hhere h).trans hnone), pass_of_none hnone, ih hcs]
  | found p rest hsome ih =>
    have hrest : ¬(placeholder key).toList <:+: rest :=
      fun hin => h (hin.trans (List.suffix_append _ _).isInfix)
    rw [pass_of_some ((hhere h).trans hsome), pass_of_some hsome, ih hrest]

theorem pass_perm {texts' : List (String × String)} (h : Distinct texts)
    (hperm : texts.Perm texts') (cs : List Char) : pass texts cs = pass texts' cs := by
  induction cs using pass_induction texts with
  | nil => rfl
  | copied c cs hnone ih =>
    rw [pass_of_none hnone, pass_of_none ((here?_perm h hperm _).symm.trans hnone), ih]
  | found p rest hsome ih =>
    rw [pass_of_some hsome, pass_of_some ((here?_perm h hperm _).symm.trans hsome), ih]

/-! ## Pieces between the placeholders of a key -/

/-- The pieces of a text between the placeholders of a key. -/
def between (key : String) (cs : List Char) : List (List Char) :=
  Search.split (placeholder key).toList cs

theorem placeholder_toList_ne_nil (key : String) : (placeholder key).toList ≠ [] :=
  mt String.toList_eq_nil_iff.1 (placeholder_ne_empty key)

theorem cuts_between (key : String) (cs : List Char) :
    Search.Cuts (placeholder key).toList cs (between key cs) :=
  Search.cuts_split (placeholder_toList_ne_nil key) cs

theorem intercalate_between (key : String) (cs : List Char) :
    (placeholder key).toList.intercalate (between key cs) = cs :=
  (cuts_between key cs).intercalate_eq

theorem not_infix_of_mem_between :
    ∀ piece ∈ between key cs, ¬(placeholder key).toList <:+: piece :=
  (cuts_between key cs).not_occurs (placeholder_toList_ne_nil key)

/-- A pass for other keys leaves the placeholders of this one. -/
theorem pass_eq (hkeys : ∀ p ∈ texts, IsKey p.1) (hkey : IsKey key)
    (hnot : key ∉ texts.map Prod.fst) (cs : List Char) :
    pass texts cs = (placeholder key).toList.intercalate ((between key cs).map (pass texts)) := by
  conv_lhs => rw [← intercalate_between key cs]
  exact pass_intercalate hkeys (pass_other hkeys hkey hnot) _

/-- **A pass for one more key** does what the others do between its placeholders. -/
theorem pass_cons (h : Distinct ((key, text) :: texts)) (cs : List Char) :
    pass ((key, text) :: texts) cs =
      text.toList.intercalate ((between key cs).map (pass texts)) := by
  have hpieces : (between key cs).map (pass ((key, text) :: texts)) =
      (between key cs).map (pass texts) :=
    List.map_congr_left fun piece hpiece =>
      pass_cons_of_not_infix (not_infix_of_mem_between piece hpiece)
  conv_lhs => rw [← intercalate_between key cs]
  rw [pass_intercalate h.isKey (pass_placeholder h List.mem_cons_self), hpieces]

end Template

end FlatLisp
