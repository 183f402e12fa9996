import StagedBuild.Report.Markdown

/-!
# Sections of a document

A document of lines is taken apart at its headings. Each section is a heading with the lines below
it, up to the next heading; the lines that begin with a digit are its items.

## Main definitions

* `DocumentSection`: a heading with the lines below it.
* `Lines.sections`: the sections of a document.
* `Lines.codeIn`: the text between the first two back quotes of a line.

## Main results

* `Lines.map_heading_sections`: every heading has a section.
* `Lines.sections_of_blocks`: what was written section by section has these headings and items.
-/

namespace StagedBuild

/-- A heading with the lines below it. -/
structure DocumentSection where
  heading : String
  body : List String

namespace Lines

def beginsWith (word line : String) : Bool :=
  word.toList.isPrefixOf line.toList

/-- A heading of the third level. -/
def isHeading (line : String) : Bool :=
  beginsWith "### " line

/-- The line begins with a digit. -/
def isItem (line : String) : Bool :=
  line.toList.head?.any Char.isDigit

/-- The headings with the lines up to the next one. Lines before the first heading belong to none. -/
def sections : List String → List DocumentSection
  | [] => []
  | line :: rest =>
    if isHeading line then
      ⟨line, rest.takeWhile fun other => !isHeading other⟩ :: sections rest
    else
      sections rest

/-- The text between the first two back quotes of a line. -/
def codeIn (line : String) : String :=
  String.ofList (((line.toList.dropWhile (· != '\x60')).drop 1).takeWhile (· != '\x60'))

end Lines

namespace DocumentSection

/-- The lines below the heading that begin with a digit. -/
def items (part : DocumentSection) : List String :=
  part.body.filter Lines.isItem

def lines (part : DocumentSection) : List String :=
  part.heading :: part.body

/-- The heading is one, and no line below it is. -/
structure WellFormed (part : DocumentSection) : Prop where
  heading : Lines.isHeading part.heading = true
  body : ∀ line ∈ part.body, Lines.isHeading line = false

end DocumentSection

namespace Lines

variable {before rest : List String}

theorem sections_append (h : ∀ line ∈ before, isHeading line = false) :
    sections (before ++ rest) = sections rest := by
  induction before with
  | nil => rfl
  | cons line before ih =>
    simp only [List.forall_mem_cons] at h
    rw [List.cons_append, sections, if_neg (by simp [h.1]), ih h.2]

theorem map_heading_sections (lines : List String) :
    (sections lines).map DocumentSection.heading = lines.filter isHeading := by
  induction lines with
  | nil => rfl
  | cons line rest ih =>
    rw [sections]
    split
    · next hline => rw [List.map_cons, ih, List.filter_cons_of_pos hline]
    · next hline => rw [ih, List.filter_cons_of_neg hline]

theorem takeWhile_append (h : ∀ line ∈ before, isHeading line = false) :
    (before ++ rest).takeWhile (fun line => !isHeading line) =
      before ++ rest.takeWhile fun line => !isHeading line := by
  apply List.takeWhile_append_of_pos
  intro line hline
  rw [h line hline, Bool.not_false]

theorem sections_heading {heading : String} (hheading : isHeading heading = true)
    (h : ∀ line ∈ before, isHeading line = false) :
    sections (heading :: (before ++ rest)) =
      ⟨heading, before ++ rest.takeWhile fun line => !isHeading line⟩ :: sections rest := by
  rw [sections, if_pos hheading, takeWhile_append h, sections_append h]

/-- A document that ends in lines without headings and items, and was written section by section
before them, has the headings and items of these sections. -/
theorem sections_of_blocks {blocks : List DocumentSection} {tail : List String}
    (hblocks : ∀ block ∈ blocks, block.WellFormed)
    (htail : ∀ line ∈ tail, isHeading line = false ∧ isItem line = false) :
    (sections (blocks.flatMap DocumentSection.lines ++ tail)).map
        (fun part => (part.heading, part.items)) =
      blocks.map fun block => (block.heading, block.items) := by
  have htailHeadings : ∀ line ∈ tail, isHeading line = false := fun line hline =>
    (htail line hline).1
  have htailItems : tail.filter isItem = [] := by
    rw [List.filter_eq_nil_iff]
    intro line hline
    simp [(htail line hline).2]
  induction blocks with
  | nil =>
    have hnone : sections (tail ++ []) = sections [] := sections_append htailHeadings
    rw [List.append_nil] at hnone
    rw [List.flatMap_nil, List.nil_append, hnone]
    rfl
  | cons block blocks ih =>
    simp only [List.forall_mem_cons] at hblocks
    obtain ⟨⟨hheading, hbody⟩, hothers⟩ := hblocks
    -- the section ends at the next heading, or takes in the lines at the end
    have hrest : ((blocks.flatMap DocumentSection.lines ++ tail).takeWhile
        fun line => !isHeading line).filter isItem = [] := by
      cases blocks with
      | nil =>
        have hall : (tail ++ []).takeWhile (fun line => !isHeading line) = tail ++ [] :=
          takeWhile_append htailHeadings
        rw [List.append_nil] at hall
        rw [List.flatMap_nil, List.nil_append, hall, htailItems]
      | cons next blocks =>
        have hnext := (hothers next List.mem_cons_self).heading
        simp [DocumentSection.lines, hnext]
    rw [List.flatMap_cons, List.append_assoc, DocumentSection.lines, List.cons_append,
      sections_heading hheading hbody, List.map_cons, List.map_cons, ih hothers]
    simp only [DocumentSection.items, List.filter_append, hrest, List.append_nil]

/-- Code in a line is found when no back quote stands before it or in it. -/
theorem codeIn_append {front code : String} (hfront : '\x60' ∉ front.toList)
    (hcode : '\x60' ∉ code.toList) (back : String) :
    codeIn (front ++ inCode code ++ back) = code := by
  have hskip : ∀ c ∈ front.toList, (c != '\x60') = true := by
    intro c hc
    rw [bne_iff_ne]
    rintro rfl
    exact hfront hc
  have htake : ∀ c ∈ code.toList, (c != '\x60') = true := by
    intro c hc
    rw [bne_iff_ne]
    rintro rfl
    exact hcode hc
  have hline : (front ++ inCode code ++ back).toList =
      front.toList ++ '\x60' :: (code.toList ++ '\x60' :: back.toList) := by
    simp [inCode]
  rw [codeIn, hline, List.dropWhile_append_of_pos hskip, List.dropWhile_cons_of_neg (by decide),
    List.drop_one, List.tail_cons, List.takeWhile_append_of_pos htake,
    List.takeWhile_cons_of_neg (by decide), List.append_nil, String.ofList_toList]

end Lines
end StagedBuild
