import StagedBuild.Text.Lines

/-!
# Occurrences in joined texts

A word that neither begins nor ends with a character of the separator can stand in a joined text in
two ways: inside one of the parts, or from one part over whole separators into a later part.

## Main definitions

* `Text.Bridges`: the word begins in one part and ends in a later one.

## Main results

* `Text.toList_joinWith`: joining texts is joining their characters.
* `Text.mem_joinWith`: where the characters of a joined text come from.
* `Text.infix_intercalate_iff`: the two ways in which a word can stand in a joined text.
-/

namespace StagedBuild
namespace Text

theorem toList_joinWith (sep : String) (texts : List String) :
    (joinWith sep texts).toList = sep.toList.intercalate (texts.map String.toList) := by
  induction texts with
  | nil => rfl
  | cons text rest ih =>
    cases rest with
    | nil => simp [joinWith]
    | cons next rest =>
      simp only [joinWith, String.toList_append, ih, List.map_cons, List.intercalate_cons_cons]

/-- A character of a joined text is one of the separator or of a part. -/
theorem mem_joinWith {c : Char} {sep : String} {texts : List String}
    (h : c ∈ (joinWith sep texts).toList) : c ∈ sep.toList ∨ ∃ text ∈ texts, c ∈ text.toList := by
  induction texts with
  | nil => simp [joinWith] at h
  | cons text rest ih =>
    cases rest with
    | nil => exact .inr ⟨text, List.mem_cons_self, h⟩
    | cons next rest =>
      simp only [joinWith, String.toList_append, List.mem_append] at h
      obtain (htext | hsep) | hrest := h
      · exact .inr ⟨text, List.mem_cons_self, htext⟩
      · exact .inl hsep
      · obtain hsep | ⟨other, hmem, hother⟩ := ih hrest
        · exact .inl hsep
        · exact .inr ⟨other, List.mem_cons_of_mem text hmem, hother⟩

theorem joinWith_ne_empty {sep text : String} (h : text ≠ "") (rest : List String) :
    joinWith sep (text :: rest) ≠ "" := by
  cases rest with
  | nil => exact h
  | cons next rest => simp [joinWith, h]

variable {α : Type} {sep word : List α}

-- ════════════════════════════════════════════════════════════════════════
-- Parts of a joined list
-- ════════════════════════════════════════════════════════════════════════

theorem intercalate_append {xs ys : List (List α)} (hxs : xs ≠ []) (hys : ys ≠ []) :
    sep.intercalate (xs ++ ys) = sep.intercalate xs ++ sep ++ sep.intercalate ys := by
  induction xs with
  | nil => exact absurd rfl hxs
  | cons x xs ih =>
    cases xs with
    | nil =>
      rw [List.singleton_append, List.intercalate_cons_of_ne_nil hys, List.intercalate_singleton]
    | cons x' xs =>
      have htail := ih (List.cons_ne_nil x' xs)
      rw [List.cons_append] at htail
      rw [List.cons_append, List.cons_append, List.intercalate_cons_cons, htail,
        List.intercalate_cons_cons]
      simp only [List.append_assoc]

/-- What precedes the first part precedes the joined list. -/
theorem intercalate_append_cons (front part : List α) (rest : List (List α)) :
    sep.intercalate ((front ++ part) :: rest) = front ++ sep.intercalate (part :: rest) := by
  cases rest with
  | nil => simp
  | cons next rest => simp

/-- What follows the last part follows the joined list. -/
theorem intercalate_concat_append (parts : List (List α)) (part back : List α) :
    sep.intercalate (parts ++ [part ++ back]) = sep.intercalate (parts ++ [part]) ++ back := by
  cases parts with
  | nil => simp
  | cons first rest =>
    have hne : first :: rest ≠ [] := List.cons_ne_nil first rest
    rw [intercalate_append hne (List.cons_ne_nil _ _), intercalate_append hne (List.cons_ne_nil _ _)]
    simp only [List.intercalate_singleton, List.append_assoc]

theorem suffix_intercalate (xs : List (List α)) {ys : List (List α)} (hys : ys ≠ []) :
    sep.intercalate ys <:+ sep.intercalate (xs ++ ys) := by
  cases xs with
  | nil => exact List.suffix_rfl
  | cons x xs =>
    rw [intercalate_append (List.cons_ne_nil x xs) hys]
    exact List.suffix_append _ _

theorem prefix_intercalate {xs : List (List α)} (hxs : xs ≠ []) (ys : List (List α)) :
    sep.intercalate xs <+: sep.intercalate (xs ++ ys) := by
  cases ys with
  | nil => simp
  | cons y ys =>
    rw [intercalate_append hxs (List.cons_ne_nil y ys), List.append_assoc]
    exact List.prefix_append _ _

/-- Neighbouring parts stand in the joined list as they are joined by themselves. -/
theorem intercalate_isInfix {xs : List (List α)} (hxs : xs ≠ []) (before after : List (List α)) :
    sep.intercalate xs <:+: sep.intercalate (before ++ (xs ++ after)) := by
  have hne : xs ++ after ≠ [] := by simp [hxs]
  exact (prefix_intercalate hxs after).isInfix.trans (suffix_intercalate before hne).isInfix

-- ════════════════════════════════════════════════════════════════════════
-- Words in a joined list
-- ════════════════════════════════════════════════════════════════════════

/-- The word begins in one part and ends in a later one, so between its two ends it has all parts
that lie between them, with the separators. -/
def Bridges (sep word : List α) (parts : List (List α)) : Prop :=
  ∃ before first middle last after head tail,
    parts = before ++ first :: (middle ++ last :: after) ∧
    head <:+ first ∧ tail <+: last ∧ word = sep.intercalate (head :: (middle ++ [tail]))

/-- The first and the last element of the word do not occur in the separator. -/
structure Clear (sep word : List α) : Prop where
  first : ∀ c, word.head? = some c → c ∉ sep
  last : ∀ c, word.getLast? = some c → c ∉ sep

/-- What is cut off in front of a clear word and lies in the separator is nothing. -/
theorem Clear.eq_nil_of_head {front back : List α} (h : Clear sep (front ++ back))
    (hfront : ∀ c ∈ front, c ∈ sep) : front = [] := by
  cases front with
  | nil => rfl
  | cons c front => exact absurd (hfront c List.mem_cons_self) (h.first c rfl)

theorem Clear.eq_nil_of_last {front back : List α} (h : Clear sep (front ++ back))
    (hback : ∀ c ∈ back, c ∈ sep) : back = [] := by
  rcases List.eq_nil_or_concat back with rfl | ⟨rest, c, rfl⟩
  · rfl
  · exact absurd (hback c (by simp)) (h.last c (by simp))

/-- What begins a list made of two begins the first, or is the first and begins the second. -/
theorem prefix_append_iff {piece xs ys : List α} :
    piece <+: xs ++ ys ↔ piece <+: xs ∨ ∃ beyond, piece = xs ++ beyond ∧ beyond <+: ys := by
  constructor
  · rintro ⟨back, hback⟩
    rcases List.append_eq_append_iff.1 hback with ⟨gap, hxs, -⟩ | ⟨beyond, hpiece, hys⟩
    · exact .inl ⟨gap, hxs.symm⟩
    · exact .inr ⟨beyond, hpiece, back, hys.symm⟩
  · rintro (h | ⟨beyond, rfl, hbeyond⟩)
    · exact h.trans (List.prefix_append xs ys)
    · exact (List.prefix_append_right_inj xs).2 hbeyond

/-- Where a joined list begins with a piece that does not end in a separator, the piece is some
whole parts and the beginning of the next. -/
theorem exists_tail_of_isPrefix {parts : List (List α)} (hne : parts ≠ []) {piece : List α}
    (hlast : ∀ c, piece.getLast? = some c → c ∉ sep) (h : piece <+: sep.intercalate parts) :
    ∃ middle last after tail, parts = middle ++ last :: after ∧ tail <+: last ∧
      piece = sep.intercalate (middle ++ [tail]) := by
  induction parts generalizing piece with
  | nil => exact absurd rfl hne
  | cons part rest ih =>
    by_cases hrest : rest = []
    · subst hrest
      rw [List.intercalate_singleton] at h
      exact ⟨[], part, [], piece, rfl, h, by simp⟩
    · rw [List.intercalate_cons_of_ne_nil hrest, prefix_append_iff] at h
      obtain hpart | ⟨later, rfl, hlater⟩ := h
      · rw [prefix_append_iff] at hpart
        obtain hpart | ⟨beyond, rfl, hbeyond⟩ := hpart
        · exact ⟨[], part, rest, piece, rfl, hpart, by simp⟩
        · -- the piece would end inside the separator
          rcases List.eq_nil_or_concat beyond with rfl | ⟨beyond, c, rfl⟩
          · exact ⟨[], part, rest, part, rfl, List.prefix_rfl, by simp⟩
          · exact absurd (hbeyond.subset (by simp)) (hlast c (by simp))
      · have hlast' : ∀ c, later.getLast? = some c → c ∉ sep := by
          intro c hc
          exact hlast c (by simp [List.getLast?_append, hc])
        obtain ⟨middle, last, after, tail, rfl, htail, rfl⟩ := ih hrest hlast' hlater
        refine ⟨part :: middle, last, after, tail, rfl, htail, ?_⟩
        rw [List.cons_append, List.intercalate_cons_of_ne_nil (by simp)]

theorem Bridges.cons {parts : List (List α)} (h : Bridges sep word parts) (part : List α) :
    Bridges sep word (part :: parts) := by
  obtain ⟨before, first, middle, last, after, head, tail, rfl, hhead, htail, hword⟩ := h
  exact ⟨part :: before, first, middle, last, after, head, tail, rfl, hhead, htail, hword⟩

/-- A word that bridges parts stands in the joined list. -/
theorem Bridges.isInfix {parts : List (List α)} (h : Bridges sep word parts) :
    word <:+: sep.intercalate parts := by
  obtain ⟨before, first, middle, last, after, head, tail, rfl, ⟨front, rfl⟩, ⟨back, rfl⟩, rfl⟩ := h
  have hparts : before ++ (front ++ head) :: (middle ++ (tail ++ back) :: after) =
      before ++ (((front ++ head) :: (middle ++ [tail ++ back])) ++ after) := by simp
  rw [hparts]
  refine List.IsInfix.trans ?_ (intercalate_isInfix (List.cons_ne_nil _ _) before after)
  rw [intercalate_append_cons, ← List.cons_append, ← List.cons_append,
    intercalate_concat_append]
  exact (List.prefix_append _ back).isInfix.trans (List.suffix_append front _).isInfix

/-- A word that bridges parts has the separator between them. -/
theorem Bridges.sep_infix {parts : List (List α)} (h : Bridges sep word parts) : sep <:+: word := by
  obtain ⟨before, first, middle, last, after, head, tail, rfl, -, -, rfl⟩ := h
  rw [List.intercalate_cons_of_ne_nil (by simp)]
  exact ⟨head, _, rfl⟩

/-- A clear word that stands in a joined list stands in one of its parts or bridges some of them. -/
theorem Clear.infix_intercalate (hclear : Clear sep word) {parts : List (List α)} (hne : parts ≠ [])
    (h : word <:+: sep.intercalate parts) :
    (∃ part ∈ parts, word <:+: part) ∨ Bridges sep word parts := by
  induction parts with
  | nil => exact absurd rfl hne
  | cons part rest ih =>
    by_cases hrest : rest = []
    · subst hrest
      rw [List.intercalate_singleton] at h
      exact .inl ⟨part, by simp, h⟩
    · have hlater : word <:+: sep.intercalate rest →
          (∃ part' ∈ part :: rest, word <:+: part') ∨ Bridges sep word (part :: rest) := by
        intro hin
        obtain ⟨part', hmem, hpart'⟩ | hbridges := ih hrest hin
        · exact .inl ⟨part', List.mem_cons_of_mem part hmem, hpart'⟩
        · exact .inr (hbridges.cons part)
      rw [List.intercalate_cons_of_ne_nil hrest, List.append_assoc, List.infix_append_iff] at h
      obtain hin | hin | ⟨head, beyond, rfl, hhead, hbeyond⟩ := h
      · exact .inl ⟨part, List.mem_cons_self, hin⟩
      · -- the word does not begin in the separator, so it begins behind it
        rw [List.infix_append_iff] at hin
        obtain hin | hin | ⟨front, beyond, rfl, hfront, hbeyond⟩ := hin
        · have hclear' : Clear sep (word ++ []) := by rwa [List.append_nil]
          have hnil : word = [] := hclear'.eq_nil_of_head fun c hc => hin.subset hc
          exact .inl ⟨part, List.mem_cons_self, hnil ▸ List.nil_infix⟩
        · exact hlater hin
        · have hnil : front = [] := hclear.eq_nil_of_head fun c hc => hfront.subset hc
          rw [hnil, List.nil_append] at hlater ⊢
          exact hlater hbeyond.isInfix
      · -- the word begins in the part; it ends there or behind the separator
        rw [prefix_append_iff] at hbeyond
        obtain hbeyond | ⟨later, rfl, hbeyond⟩ := hbeyond
        · have hnil : beyond = [] := hclear.eq_nil_of_last fun c hc => hbeyond.subset hc
          rw [hnil, List.append_nil]
          exact .inl ⟨part, List.mem_cons_self, hhead.isInfix⟩
        · have hlast : ∀ c, later.getLast? = some c → c ∉ sep := by
            intro c hc
            exact hclear.last c (by simp [List.getLast?_append, hc])
          obtain ⟨middle, last, after, tail, rfl, htail, rfl⟩ :=
            exists_tail_of_isPrefix hrest hlast hbeyond
          refine .inr ⟨[], part, middle, last, after, head, tail, rfl, hhead, htail, ?_⟩
          rw [List.intercalate_cons_of_ne_nil (by simp), List.append_assoc]

theorem infix_intercalate_iff (hclear : Clear sep word) {parts : List (List α)} (hne : parts ≠ []) :
    word <:+: sep.intercalate parts ↔ (∃ part ∈ parts, word <:+: part) ∨ Bridges sep word parts := by
  constructor
  · exact hclear.infix_intercalate hne
  · rintro (⟨part, hmem, hpart⟩ | hbridges)
    · obtain ⟨before, after, rfl⟩ := List.append_of_mem hmem
      have hin : sep.intercalate [part] <:+: sep.intercalate (before ++ ([part] ++ after)) :=
        intercalate_isInfix (List.cons_ne_nil part []) before after
      rw [List.intercalate_singleton] at hin
      exact hpart.trans hin
    · exact hbridges.isInfix

end Text
end StagedBuild
