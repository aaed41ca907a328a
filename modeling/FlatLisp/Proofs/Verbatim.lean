import FlatLisp.Proofs.Placeholders
import Mathlib.Tactic.LinearCombination

/-!
# Values put in as they are

Filling in one key after another comes to the same as one pass for all keys, as long as no new
placeholder appears on the way: text that is put in, alone or with what stands around it, may be
the placeholder of a key whose turn comes later. How often a placeholder occurs (`Template.places`)
tells: between the placeholders of a key in the template, a pass for other keys makes one more, or
it makes none (`Template.Spares`).

* `Template.replace_pass`: **filling in one more key is a pass for it as well**, if the others make
  no placeholder of it; `Template.spares_of_replace_eq` is the converse.
* `Template.independent_of_notMem`: keys do not find each other's texts where there are no percent
  signs but those of the placeholders.
* `Builtin.inserts_verbatim`: **filling in pairs puts in their values as they are**, if no pair makes
  placeholders of another one, and in whatever order they are given.
-/

namespace FlatLisp

namespace Template

variable {key key' text : String} {piece rest cs : List Char} {texts : List (String × String)}

/-! ## New placeholders -/

/-- The number of placeholders of a key. -/
def places (key : String) (cs : List Char) : Nat :=
  cs.tails.countP fun rest => (placeholder key).toList.isPrefixOf rest

theorem places_nil (key : String) : places key [] = 0 := by
  simp [places, toList_placeholder]

theorem places_cons (key : String) (c : Char) (cs : List Char) :
    places key (c :: cs) = places key cs + if (placeholder key).toList <+: c :: cs then 1 else 0 := by
  rw [places, List.tails_cons, List.countP_cons]
  simp only [List.isPrefixOf_iff_prefix]
  rfl

theorem places_eq_zero_iff : places key cs = 0 ↔ ¬(placeholder key).toList <:+: cs := by
  induction cs with
  | nil => simp [places_nil, toList_placeholder]
  | cons c cs ih =>
    rw [places_cons, List.infix_cons_iff, not_or, ← ih]
    split_ifs with hstart <;> simp [hstart]

theorem places_append_of_notMem (hpercent : '%' ∉ piece) (rest : List Char) :
    places key (piece ++ rest) = places key rest := by
  induction piece with
  | nil => rfl
  | cons c piece ih =>
    obtain ⟨hc, hpiece⟩ := not_or.1 (mt List.mem_cons.2 hpercent)
    have hstart : ¬(placeholder key).toList <+: c :: (piece ++ rest) := by
      rw [toList_placeholder, List.cons_prefix_cons]
      exact fun h => hc h.1
    rw [List.cons_append, places_cons, if_neg hstart, ih hpiece, Nat.add_zero]

/-- A placeholder counts once for its own key. -/
theorem places_placeholder (hkey : IsKey key) (hkey' : IsKey key') (rest : List Char) :
    places key ((placeholder key').toList ++ rest) =
      places key rest + if key = key' then 1 else 0 := by
  have hpercent : '%' ∉ '\x7b' :: (key'.toList ++ ['\x7d']) := by simp [hkey'.percent]
  have hstart : (placeholder key).toList <+: (placeholder key').toList ++ rest ↔ key = key' :=
    ⟨hkey.eq_of_starts hkey', fun h => h ▸ List.prefix_append _ _⟩
  rw [toList_placeholder key', List.cons_append] at hstart ⊢
  rw [places_cons, places_append_of_notMem hpercent]
  simp only [hstart]

theorem places_append (hkey : IsKey key) (piece : List Char) (key' : String) (rest : List Char) :
    places key (piece ++ ((placeholder key').toList ++ rest)) =
      places key piece + places key ((placeholder key').toList ++ rest) := by
  induction piece with
  | nil => simp [places_nil]
  | cons c piece ih =>
    have hstart : (placeholder key).toList <+: c :: (piece ++ ((placeholder key').toList ++ rest)) ↔
        (placeholder key).toList <+: c :: piece :=
      ⟨hkey.apart (List.cons_ne_nil c piece), fun h => h.trans (List.prefix_append (c :: piece) _)⟩
    rw [List.cons_append, places_cons, places_cons, ih]
    simp only [hstart]
    omega

theorem places_append_le (key : String) (piece rest : List Char) :
    places key piece + places key rest ≤ places key (piece ++ rest) := by
  induction piece with
  | nil => simp [places_nil]
  | cons c piece ih =>
    rw [List.cons_append, places_cons, places_cons]
    have hstart : (placeholder key).toList <+: c :: piece →
        (placeholder key).toList <+: c :: (piece ++ rest) :=
      fun h => h.trans (List.prefix_append (c :: piece) rest)
    by_cases hpiece : (placeholder key).toList <+: c :: piece
    · rw [if_pos hpiece, if_pos (hstart hpiece)]
      omega
    · rw [if_neg hpiece]
      omega

/-- Between pieces there is one more placeholder of the key that separates them, and no other. -/
theorem places_intercalate (hkey : IsKey key) (hkey' : IsKey key') {pieces : List (List Char)}
    (hne : pieces ≠ []) :
    places key ((placeholder key').toList.intercalate pieces) + (if key = key' then 1 else 0) =
      (pieces.map (places key)).sum + (if key = key' then pieces.length else 0) := by
  induction pieces with
  | nil => exact absurd rfl hne
  | cons piece pieces ih =>
    rcases eq_or_ne pieces [] with rfl | hcons
    · simp
    · have ih := ih hcons
      rw [List.intercalate_cons_of_ne_nil hcons, List.append_assoc, places_append hkey,
        places_placeholder hkey hkey', List.map_cons, List.sum_cons, List.length_cons]
      split_ifs at ih ⊢ <;> omega

theorem sum_places_le (key : String) (separator : List Char) (pieces : List (List Char)) :
    (pieces.map (places key)).sum ≤ places key (separator.intercalate pieces) := by
  induction pieces with
  | nil => simp
  | cons piece pieces ih =>
    rcases eq_or_ne pieces [] with rfl | hne
    · simp
    · have hpiece := places_append_le key piece (separator ++ separator.intercalate pieces)
      have hpieces := places_append_le key separator (separator.intercalate pieces)
      rw [List.intercalate_cons_of_ne_nil hne, List.append_assoc, List.map_cons, List.sum_cons]
      omega

theorem between_ne_nil (key : String) (cs : List Char) : between key cs ≠ [] :=
  (cuts_between key cs).ne_nil

theorem length_between (hkey : IsKey key) (cs : List Char) :
    (between key cs).length = places key cs + 1 := by
  have hcount := places_intercalate hkey hkey (between_ne_nil key cs)
  have hzero : ((between key cs).map (places key)).sum = 0 := by
    refine List.sum_eq_zero fun n hn => ?_
    obtain ⟨piece, hpiece, rfl⟩ := List.mem_map.1 hn
    exact places_eq_zero_iff.2 (not_infix_of_mem_between piece hpiece)
  rw [intercalate_between, hzero, if_pos rfl, if_pos rfl] at hcount
  omega

/-- Filling in the texts makes no new placeholder of the key. -/
def Spares (texts : List (String × String)) (key : String) (cs : List Char) : Prop :=
  places key (pass texts cs) = places key cs

instance (texts : List (String × String)) (key : String) (cs : List Char) :
    Decidable (Spares texts key cs) := inferInstanceAs (Decidable (_ = _))

/-- Then none is made between two placeholders of the key. -/
theorem spares_iff (hkeys : ∀ p ∈ texts, IsKey p.1) (hkey : IsKey key)
    (hnot : key ∉ texts.map Prod.fst) : Spares texts key cs ↔
      ∀ piece ∈ between key cs, ¬(placeholder key).toList <:+: pass texts piece := by
  have hne : (between key cs).map (pass texts) ≠ [] :=
    mt List.map_eq_nil_iff.1 (between_ne_nil key cs)
  have hcount := places_intercalate hkey hkey hne
  rw [← pass_eq hkeys hkey hnot, if_pos rfl, if_pos rfl, List.length_map,
    length_between hkey] at hcount
  have hsum : Spares texts key cs ↔
      (((between key cs).map (pass texts)).map (places key)).sum = 0 := by
    rw [Spares]
    omega
  simp only [hsum, List.sum_eq_zero_iff_forall_eq_nat, List.forall_mem_map, places_eq_zero_iff]

/-- **Filling in one more key is a pass for it as well**, if the others make no new placeholder of
it. -/
theorem replace_pass (h : Distinct ((key, text) :: texts)) (hspares : Spares texts key cs) :
    Search.replace (placeholder key).toList text.toList (pass texts cs) =
      pass ((key, text) :: texts) cs := by
  have hkey : IsKey key := h.isKey _ List.mem_cons_self
  have hfree := (spares_iff h.tail.isKey hkey h.notMem).1 hspares
  have hcuts : Search.Cuts (placeholder key).toList (pass texts cs)
      ((between key cs).map (pass texts)) := by
    rw [pass_eq h.tail.isKey hkey h.notMem]
    refine Search.cuts_intercalate (fun piece rest => hkey.apart) ?_ ?_
    · exact mt List.map_eq_nil_iff.1 (between_ne_nil key cs)
    · exact List.forall_mem_map.2 hfree
  rw [Search.replace_eq, (Search.cuts_iff (placeholder_toList_ne_nil key)).1 hcuts, pass_cons h]

/-- A join is as long as its pieces and what separates them. -/
theorem length_intercalate {pieces : List (List Char)} (hne : pieces ≠ []) (separator : List Char) :
    (separator.intercalate pieces).length + separator.length =
      (pieces.map List.length).sum + pieces.length * separator.length := by
  induction pieces with
  | nil => exact absurd rfl hne
  | cons piece pieces ih =>
    rcases eq_or_ne pieces [] with rfl | hcons
    · simp
    · have ih := ih hcons
      rw [List.intercalate_cons_of_ne_nil hcons, List.map_cons, List.sum_cons, List.length_cons,
        Nat.succ_mul, List.length_append, List.length_append]
      omega

/-- Otherwise a new placeholder is filled in, which shows if the text has another length. -/
theorem spares_of_replace_eq (h : Distinct ((key, text) :: texts))
    (hlength : text.toList.length ≠ (placeholder key).toList.length)
    (heq : Search.replace (placeholder key).toList text.toList (pass texts cs) =
      pass ((key, text) :: texts) cs) : Spares texts key cs := by
  have hkey : IsKey key := h.isKey _ List.mem_cons_self
  have hnew := between_ne_nil key (pass texts cs)
  have hold : (between key cs).map (pass texts) ≠ [] :=
    mt List.map_eq_nil_iff.1 (between_ne_nil key cs)
  rw [Search.replace_eq, pass_cons h] at heq
  have htext := length_intercalate hnew text.toList
  have hplace := length_intercalate hnew (placeholder key).toList
  have htext' := length_intercalate hold text.toList
  have hplace' := length_intercalate hold (placeholder key).toList
  have hpass : (placeholder key).toList.intercalate (between key (pass texts cs)) = pass texts cs :=
    intercalate_between key (pass texts cs)
  change text.toList.intercalate (between key (pass texts cs)) = _ at heq
  rw [heq] at htext
  rw [hpass] at hplace
  rw [← pass_eq h.tail.isKey hkey h.notMem] at hplace'
  rw [List.length_map, length_between hkey] at htext' hplace'
  rw [length_between hkey] at htext hplace
  -- both ways of counting the characters differ by the same number of texts and of placeholders
  have hboth : ((places key (pass texts cs) : ℤ) - places key cs) *
      (text.toList.length - (placeholder key).toList.length) = 0 := by
    zify at htext hplace htext' hplace'
    linear_combination htext' - htext - (hplace' - hplace)
  rcases mul_eq_zero.1 hboth with hcount | hsize
  · rw [Spares]
    omega
  · omega

/-! ## Several keys -/

theorem Distinct.sublist {texts' : List (String × String)} (h : Distinct texts)
    (hsub : texts'.Sublist texts) : Distinct texts' :=
  ⟨fun p hp => h.isKey p (hsub.mem hp), h.nodup.sublist (hsub.map Prod.fst)⟩

/-- Each key finds the placeholders of the template, and no other, when its turn comes. -/
def Undisturbed (texts : List (String × String)) (cs : List Char) : Prop :=
  ∀ front p back, texts = front ++ p :: back → Spares front p.1 cs

/-- No key would find another placeholder if all others were filled in. -/
def Independent (texts : List (String × String)) (cs : List Char) : Prop :=
  ∀ front p back, texts = front ++ p :: back → Spares (front ++ back) p.1 cs

/-- A single pair finds no other placeholder, whatever its text is. -/
theorem undisturbed_singleton (p : String × String) (cs : List Char) : Undisturbed [p] cs := by
  intro front q back heq
  have hlength := congrArg List.length heq
  simp only [List.length_append, List.length_cons, List.length_nil] at hlength
  obtain rfl : front = [] := List.length_eq_zero_iff.1 (by omega)
  rw [Spares, pass_empty]

theorem places_pass_le {p : String × String} (h : Distinct (p :: texts)) (hkey : IsKey key)
    (hne : key ≠ p.1) (cs : List Char) :
    places key (pass texts cs) ≤ places key (pass (p :: texts) cs) := by
  have hp : IsKey p.1 := h.isKey _ List.mem_cons_self
  have hpieces : (between p.1 cs).map (pass texts) ≠ [] :=
    mt List.map_eq_nil_iff.1 (between_ne_nil p.1 cs)
  have hcount := places_intercalate hkey hp hpieces
  rw [← pass_eq h.tail.isKey hp h.notMem, if_neg hne, if_neg hne, Nat.add_zero,
    Nat.add_zero] at hcount
  rw [hcount, pass_cons h]
  exact sum_places_le _ _ _

theorem places_pass_append_le {more : List (String × String)} (h : Distinct (more ++ texts))
    (hkey : IsKey key) (hnot : key ∉ more.map Prod.fst) (cs : List Char) :
    places key (pass texts cs) ≤ places key (pass (more ++ texts) cs) := by
  induction more with
  | nil => exact le_rfl
  | cons p more ih =>
    rw [List.map_cons, List.mem_cons, not_or] at hnot
    exact (ih h.tail hnot.2).trans (places_pass_le h hkey hnot.1 cs)

/-- What all others do not make, some of them do not make. -/
theorem Spares.of_append {more : List (String × String)} (h : Distinct (more ++ texts))
    (hkey : IsKey key) (hnot : key ∉ (more ++ texts).map Prod.fst)
    (hspares : Spares (more ++ texts) key cs) : Spares texts key cs := by
  rw [List.map_append, List.mem_append, not_or] at hnot
  have hempty : Distinct (texts ++ []) := by
    rw [List.append_nil]
    exact h.sublist (List.sublist_append_right _ _)
  have hfew := places_pass_append_le hempty hkey hnot.2 cs
  have hmany := places_pass_append_le h hkey hnot.1 cs
  rw [pass_empty, List.append_nil] at hfew
  exact le_antisymm (hmany.trans_eq hspares) hfew

theorem Independent.undisturbed {texts' : List (String × String)} (hd : Distinct texts)
    (h : Independent texts cs) (hperm : texts'.Perm texts) : Undisturbed texts' cs := by
  rintro front p back rfl
  obtain ⟨front', back', rfl⟩ := List.append_of_mem (hperm.mem_iff.1 (List.mem_append_right front
    (List.mem_cons_self (a := p) (l := back))))
  have hothers : (back ++ front).Perm (front' ++ back') := by
    have hcons : (p :: (back ++ front)).Perm (p :: (front' ++ back')) := by
      refine (List.Perm.trans ?_ hperm).trans List.perm_middle
      exact (List.perm_append_comm.cons p).trans List.perm_middle.symm
    exact hcons.cons_inv
  have hd' : Distinct (p :: (front' ++ back')) := hd.perm List.perm_middle
  have hkey : IsKey p.1 := hd'.isKey _ List.mem_cons_self
  have hspares : Spares (back ++ front) p.1 cs := by
    rw [Spares, pass_perm (hd'.tail.perm hothers.symm) hothers]
    exact h front' p back' rfl
  refine hspares.of_append (hd'.tail.perm hothers.symm) hkey fun hmem => hd'.notMem ?_
  exact (hothers.map Prod.fst).mem_iff.1 hmem

/-- The keys, with nothing to put in. -/
def blank (texts : List (String × String)) : List (String × String) := texts.map fun p => (p.1, "")

theorem map_fst_blank (texts : List (String × String)) :
    (blank texts).map Prod.fst = texts.map Prod.fst := by
  rw [blank, List.map_map]
  rfl

theorem Distinct.blank (h : Distinct texts) : Distinct (blank texts) where
  isKey := List.forall_mem_map.2 h.isKey
  nodup := by rw [map_fst_blank]; exact h.nodup

/-- A character of the result is one of a text, or one of the template that is copied. -/
theorem mem_pass {c : Char} (hc : c ∈ pass texts cs) :
    (∃ p ∈ texts, c ∈ p.2.toList) ∨ c ∈ pass (blank texts) cs := by
  have hblank : ∀ cs, here? (blank texts) cs = (here? texts cs).map fun p => (p.1, "") :=
    fun cs => List.find?_map
  induction cs using pass_induction texts with
  | nil => exact absurd hc List.not_mem_nil
  | copied d cs hnone ih =>
    have hcopied : here? (blank texts) (d :: cs) = none := by rw [hblank, hnone, Option.map_none]
    rw [pass_of_none hcopied]
    rw [pass_of_none hnone, List.mem_cons] at hc
    rcases hc with rfl | hc
    · exact .inr List.mem_cons_self
    · exact (ih hc).imp_right (List.mem_cons_of_mem _)
  | found p rest hsome ih =>
    have hfound : here? (blank texts) ((placeholder p.1).toList ++ rest) = some (p.1, "") := by
      rw [hblank, hsome, Option.map_some]
    rw [pass_of_some (p := (p.1, "")) hfound]
    rw [pass_of_some hsome, List.mem_append] at hc
    rcases hc with hc | hc
    · exact .inl ⟨p, (here?_some hsome).1, hc⟩
    · exact (ih hc).imp_right (List.mem_append_right _)

theorem mem_intercalate {c : Char} {separator : List Char} {pieces : List (List Char)}
    (hpiece : piece ∈ pieces) (hc : c ∈ piece) : c ∈ separator.intercalate pieces := by
  induction pieces with
  | nil => exact absurd hpiece List.not_mem_nil
  | cons first pieces ih =>
    rcases eq_or_ne pieces [] with rfl | hne
    · rwa [List.intercalate_singleton, ← List.mem_singleton.1 hpiece]
    · rw [List.intercalate_cons_of_ne_nil hne, List.mem_append, List.mem_append]
      rcases List.mem_cons.1 hpiece with rfl | hpiece
      · exact .inl (.inl hc)
      · exact .inr (ih hpiece)

/-- No key finds another placeholder if there is no percent sign in the texts, nor in the template
between the placeholders. -/
theorem independent_of_notMem (h : Distinct texts) (htexts : ∀ p ∈ texts, '%' ∉ p.2.toList)
    (hcopied : '%' ∉ pass (blank texts) cs) : Independent texts cs := by
  rintro front p back rfl
  have hd : Distinct (p :: (front ++ back)) := h.perm List.perm_middle
  have hkey : IsKey p.1 := hd.isKey _ List.mem_cons_self
  refine (spares_iff hd.tail.isKey hkey hd.notMem).2 fun piece hpiece hin => ?_
  have hpercent : '%' ∈ pass (front ++ back) piece := by
    refine hin.mem ?_
    rw [toList_placeholder]
    exact List.mem_cons_self
  rcases mem_pass hpercent with ⟨q, hq, hmem⟩ | hmem
  · exact htexts q (List.perm_middle.mem_iff.2 (List.mem_cons_of_mem _ hq)) hmem
  · have hperm : (blank (front ++ p :: back)).Perm (blank (p :: (front ++ back))) :=
      List.perm_middle.map _
    have hcons : pass (blank (p :: (front ++ back))) cs =
        [].intercalate ((between p.1 cs).map (pass (blank (front ++ back)))) := pass_cons hd.blank cs
    rw [pass_perm h.blank hperm, hcons] at hcopied
    exact hcopied (mem_intercalate (List.mem_map_of_mem hpiece) hmem)

/-- **Filling in one key after another is one pass**, if each key finds only the placeholders of
the template. -/
theorem foldl_fill_pass {E : Expressions} (hE : E.Documented) (front back : List (String × String))
    (h : Distinct (front ++ back)) (hfits : ∀ p ∈ back, E.Fits p.1)
    (hspares : Undisturbed (front ++ back) cs) :
    back.foldl (fun t p => E.fill t p.1 p.2) (.ofList (pass front cs)) =
      .ofList (pass (front ++ back) cs) := by
  induction back generalizing front with
  | nil => rw [List.append_nil, List.foldl_nil]
  | cons p back ih =>
    obtain ⟨hp, hback⟩ := List.forall_mem_cons.1 hfits
    have hsplit : front ++ p :: back = front ++ [p] ++ back := by simp
    have hfront : Distinct (front ++ [p]) := by
      rw [hsplit] at h
      exact h.sublist (List.sublist_append_left _ _)
    have hperm : (front ++ [p]).Perm (p :: front) := List.perm_append_singleton p front
    have hfill : E.fill (.ofList (pass front cs)) p.1 p.2 = .ofList (pass (front ++ [p]) cs) := by
      rw [hE.fill_eq hp, String.toList_ofList, pass_perm hfront hperm]
      exact congrArg String.ofList (replace_pass (hfront.perm hperm) (hspares front p back rfl))
    rw [List.foldl_cons, hfill, hsplit]
    rw [hsplit] at h hspares
    exact ih (front ++ [p]) h hback hspares

end Template

namespace Builtin

open Template

/-- The keys of pairs, with the texts of their values. -/
def keyTexts (pairs : List (String × Value)) : List (String × String) :=
  pairs.map fun p => (p.1, p.2.text)

variable {pairs : List (String × Value)} {template : String} {E : Expressions}

theorem map_fst_keyTexts (pairs : List (String × Value)) :
    (keyTexts pairs).map Prod.fst = pairs.map Prod.fst := by
  rw [keyTexts, List.map_map]
  rfl

theorem distinct_keyTexts (hkeys : ∀ p ∈ pairs, IsKey p.1 ∧ E.Fits p.1)
    (hdistinct : (pairs.map Prod.fst).Nodup) : Distinct (keyTexts pairs) where
  isKey := List.forall_mem_map.2 fun p hp => (hkeys p hp).1
  nodup := by rwa [map_fst_keyTexts]

theorem fillAll_eq_foldl (E : Expressions) (template : String) (pairs : List (String × Value)) :
    fillAll E template pairs = (keyTexts pairs).foldl (fun t p => E.fill t p.1 p.2) template := by
  rw [keyTexts, List.foldl_map]
  rfl

theorem fillAll_eq_pass (hE : E.Documented) (hkeys : ∀ p ∈ pairs, IsKey p.1 ∧ E.Fits p.1)
    (hdistinct : (pairs.map Prod.fst).Nodup)
    (h : Undisturbed (keyTexts pairs) template.toList) :
    fillAll E template pairs = .ofList (pass (keyTexts pairs) template.toList) := by
  have hfold := foldl_fill_pass hE [] (keyTexts pairs) (distinct_keyTexts hkeys hdistinct)
    (List.forall_mem_map.2 fun p hp => (hkeys p hp).2) h
  rwa [pass_empty, String.ofList_toList, List.nil_append, ← fillAll_eq_foldl] at hfold

theorem fillAll_append (E : Expressions) (template : String) (front back : List (String × Value)) :
    fillAll E template (front ++ back) = fillAll E (fillAll E template front) back :=
  List.foldl_append

/-- The last pair fills in what the pairs before it have made of the template. -/
theorem fillAll_eq_pass_iff (hE : E.Documented) {front : List (String × Value)} {key : String}
    {v : Value} (hkeys : ∀ p ∈ front ++ [(key, v)], IsKey p.1 ∧ E.Fits p.1)
    (hdistinct : ((front ++ [(key, v)]).map Prod.fst).Nodup)
    (hfront : Undisturbed (keyTexts front) template.toList)
    (hlength : v.text.toList.length ≠ (placeholder key).toList.length) :
    fillAll E template (front ++ [(key, v)]) =
        .ofList (pass (keyTexts (front ++ [(key, v)])) template.toList) ↔
      Spares (keyTexts front) key template.toList := by
  have hd : Distinct (keyTexts (front ++ [(key, v)])) := distinct_keyTexts hkeys hdistinct
  have hperm : (keyTexts (front ++ [(key, v)])).Perm ((key, v.text) :: keyTexts front) := by
    rw [keyTexts, List.map_append]
    exact List.perm_append_singleton _ _
  have hkey : E.Fits key := (hkeys (key, v) (by simp)).2
  have hall : fillAll E template front = .ofList (pass (keyTexts front) template.toList) := by
    refine fillAll_eq_pass hE (fun p hp => hkeys p (List.mem_append_left _ hp)) ?_ hfront
    rw [List.map_append, List.nodup_append] at hdistinct
    exact hdistinct.1
  have hlast : fillAll E template (front ++ [(key, v)]) = .ofList (Search.replace
      (placeholder key).toList v.text.toList (pass (keyTexts front) template.toList)) := by
    rw [fillAll_append, hall, fillAll, List.foldl_cons, List.foldl_nil, hE.fill_eq hkey,
      String.toList_ofList]
  rw [hlast, pass_perm hd hperm]
  constructor
  · exact fun heq => spares_of_replace_eq (hd.perm hperm) hlength (String.ofList_injective heq)
  · exact fun hspares => congrArg String.ofList (replace_pass (hd.perm hperm) hspares)

/-- **Filling in pairs puts in their values as they are**, all in one pass over the template, if
each pair finds only the placeholders of the template when its turn comes. The library of regular
expressions is any that keeps to what its users are told and takes those for the placeholders. If no
pair would find another one with all others filled in, this holds in whatever order they are given.
And it fails for the last pair if that finds another one, unless its value is as long as its
placeholder. -/
theorem inserts_verbatim (hE : E.Documented) (hkeys : ∀ p ∈ pairs, IsKey p.1 ∧ E.Fits p.1)
    (hdistinct : (pairs.map Prod.fst).Nodup) (template : String) :
    let result : String := .ofList (pass (keyTexts pairs) template.toList)
    (Undisturbed (keyTexts pairs) template.toList → ∀ ws, List.Forall₂ IsPair pairs ws → ∀ s,
      format.call (.string template :: ws) s E = (.ok (.string result), s)) ∧
    (Independent (keyTexts pairs) template.toList → ∀ pairs', pairs'.Perm pairs →
      ∀ ws, List.Forall₂ IsPair pairs' ws → ∀ s,
        format.call (.string template :: ws) s E = (.ok (.string result), s)) ∧
    (∀ front key v, pairs = front ++ [(key, v)] → Undisturbed (keyTexts front) template.toList →
      v.text.toList.length ≠ (placeholder key).toList.length →
      ∀ ws, List.Forall₂ IsPair pairs ws → ∀ s,
        (format.call (.string template :: ws) s E = (.ok (.string result), s) ↔
          Spares (keyTexts front) key template.toList)) := by
  intro result
  have hd : Distinct (keyTexts pairs) := distinct_keyTexts hkeys hdistinct
  refine ⟨fun hund ws hws s => ?inTurn, fun hind pairs' hperm ws hws s => ?anyOrder,
    fun front key v hlast hfront hlength ws hws s => ?last⟩
  case inTurn =>
    rw [format_call hws, fillAll_eq_pass hE hkeys hdistinct hund]
  case anyOrder =>
    have hkeys' : ∀ p ∈ pairs', IsKey p.1 ∧ E.Fits p.1 := fun p hp => hkeys p (hperm.mem_iff.1 hp)
    have hdistinct' : (pairs'.map Prod.fst).Nodup := (hperm.map Prod.fst).nodup_iff.2 hdistinct
    have htexts : (keyTexts pairs').Perm (keyTexts pairs) := hperm.map _
    rw [format_call hws, fillAll_eq_pass hE hkeys' hdistinct' (hind.undisturbed hd htexts),
      pass_perm (hd.perm htexts.symm) htexts]
  case last =>
    subst hlast
    rw [← fillAll_eq_pass_iff hE hkeys hdistinct hfront hlength, format_call hws]
    simp [result]

/-- Two pairs that are given in another order, and two of which the first one puts in the placeholder
of the second one. -/
theorem inserts_verbatim_user :
    let apart := [("user", Value.string "ann"), ("home", .cell 0 (.string "a") .nil)]
    let nested := [("a", Value.string "%\x7bb\x7d"), ("b", .string "x")]
    Expressions.plain.Documented ∧
    ((∀ p ∈ apart, IsKey p.1 ∧ Expressions.plain.Fits p.1) ∧ (apart.map Prod.fst).Nodup ∧
      Independent (keyTexts apart) "%\x7bhome\x7d of %\x7buser\x7d".toList ∧
      ∀ s, format.call [.string "%\x7bhome\x7d of %\x7buser\x7d",
        .cell 1 (.string "home") (.cell 0 (.string "a") .nil),
        .cell 2 (.string "user") (.string "ann")] s =
          (.ok (.string "(a) of ann"), s)) ∧
    ((∀ p ∈ nested, IsKey p.1 ∧ Expressions.plain.Fits p.1) ∧ (nested.map Prod.fst).Nodup ∧
      Undisturbed (keyTexts [("a", .string "%\x7bb\x7d")]) "%\x7ba\x7d".toList ∧
      (Value.string "x").text.toList.length ≠ (placeholder "b").toList.length ∧
      ∀ s, format.call [.string "%\x7ba\x7d", .cell 0 (.string "a") (.string "%\x7bb\x7d"),
        .cell 1 (.string "b") (.string "x")] s ≠ (.ok (.string "%\x7bb\x7d"), s)) := by
  intro apart nested
  have hapart : ∀ p ∈ apart, IsKey p.1 ∧ Expressions.plain.Fits p.1 := by decide
  have hnested : ∀ p ∈ nested, IsKey p.1 ∧ Expressions.plain.Fits p.1 := by decide
  have hindependent : Independent (keyTexts apart) "%\x7bhome\x7d of %\x7buser\x7d".toList :=
    independent_of_notMem (distinct_keyTexts hapart (by decide)) (by decide) (by decide)
  have hfirst := undisturbed_singleton ("a", "%\x7bb\x7d") "%\x7ba\x7d".toList
  refine ⟨Expressions.plain_documented, ⟨hapart, by decide, hindependent, fun s => ?_⟩,
    ⟨hnested, by decide, hfirst, by decide, fun s hcall => ?_⟩⟩
  · have hresult : String.ofList (pass (keyTexts apart) "%\x7bhome\x7d of %\x7buser\x7d".toList) =
        "(a) of ann" := by decide
    obtain ⟨-, hany, -⟩ := inserts_verbatim Expressions.plain_documented hapart (by decide)
      "%\x7bhome\x7d of %\x7buser\x7d"
    rw [hany hindependent apart.reverse (List.reverse_perm apart) _
      (.cons (.cell 1 _ _) (.cons (.cell 2 _ _) .nil)) s, hresult]
  · have hspares : ¬Spares (keyTexts [("a", .string "%\x7bb\x7d")]) "b" "%\x7ba\x7d".toList := by
      decide
    have hresult : String.ofList (pass (keyTexts nested) "%\x7ba\x7d".toList) = "%\x7bb\x7d" := by
      decide
    obtain ⟨-, -, hlast⟩ :=
      inserts_verbatim Expressions.plain_documented hnested (by decide) "%\x7ba\x7d"
    refine hspares ((hlast [("a", .string "%\x7bb\x7d")] "b" (.string "x") rfl hfirst (by decide) _
      (.cons (.cell 0 _ _) (.cons (.cell 1 _ _) .nil)) s).1 ?_)
    rw [hcall, hresult]

/-- **The text of a value is filled in again.** Of two values one is the placeholder of the other
key; in the other order it is left as it is. -/
theorem value_filled_in_again :
    let pairs := [("a", Value.string "%\x7bb\x7d"), ("b", .string "x")]
    (∀ p ∈ pairs, p.1 ≠ "" ∧ '\x7b' ∉ p.1.toList ∧ IsKey p.1 ∧
      Expressions.plain.Fits p.1) ∧
    (pairs.map Prod.fst).Nodup ∧
    pass (keyTexts pairs) "%\x7ba\x7d".toList = "%\x7bb\x7d".toList ∧
    (∀ s, format.call [.string "%\x7ba\x7d", .cell 0 (.string "a") (.string "%\x7bb\x7d"),
      .cell 1 (.string "b") (.string "x")] s = (.ok (.string "x"), s)) ∧
    ∀ s, format.call [.string "%\x7ba\x7d", .cell 1 (.string "b") (.string "x"),
      .cell 0 (.string "a") (.string "%\x7bb\x7d")] s = (.ok (.string "%\x7bb\x7d"), s) := by
  intro pairs
  refine ⟨by decide, by decide, by decide, fun s => ?_, fun s => ?_⟩
  · have hfill : fillAll .plain "%\x7ba\x7d" pairs = "x" := by decide
    have hpairs : List.Forall₂ IsPair pairs [.cell 0 (.string "a") (.string "%\x7bb\x7d"),
        .cell 1 (.string "b") (.string "x")] := .cons (.cell 0 _ _) (.cons (.cell 1 _ _) .nil)
    rw [format_call hpairs, hfill]
  · have hfill : fillAll .plain "%\x7ba\x7d" pairs.reverse = "%\x7bb\x7d" := by decide
    have hpairs : List.Forall₂ IsPair pairs.reverse [.cell 1 (.string "b") (.string "x"),
        .cell 0 (.string "a") (.string "%\x7bb\x7d")] := .cons (.cell 1 _ _) (.cons (.cell 0 _ _) .nil)
    rw [format_call hpairs, hfill]

end Builtin

end FlatLisp
