import ShiftReduce.Assembly.Source
import ShiftReduce.Proofs.Assembly.Pieces

/-!
# The margins of a line

Blanks and comments are dropped from a line twice: once for its code, where the first `;` begins the
comment and the blanks on both sides of the rest are taken away, and once when it is cut into pieces. A
line is its left margin, its code, its right margin and its comment, in this order (`text_eq`). If the
margins are nothing but gaps, the line is cut as its code is, only further to the right
(`lex_text_eq`).

The two ways do not agree on what is blank, hence the condition on the margins: the cutting knows five
gaps, and for it a no-break space is an error.
-/

namespace ShiftReduce.Assembly

/-- Gaps are blank. -/
theorem isBlank_of_isGap {c : Char} (h : isGap c = true) : Text.isBlank c = true := by
  simp only [isGap, Bool.or_eq_true, decide_eq_true_eq] at h
  rcases h with (((rfl | rfl) | rfl) | rfl) | rfl <;> decide

namespace SourceLine

/-! ## The parts of a line -/

/-- The text before any comment. -/
def beforeComment (l : SourceLine) : List Char := l.text.toList.takeWhile (· ≠ ';')

/-- The comment, from its `;` on. -/
def comment (l : SourceLine) : List Char := l.text.toList.dropWhile (· ≠ ';')

/-- The blanks before the code. If there is no code these are all blanks before the comment. -/
def leftMargin (l : SourceLine) : List Char := l.beforeComment.takeWhile Text.isBlank

/-- The blanks between the code and the comment. -/
def rightMargin (l : SourceLine) : List Char :=
  ((l.beforeComment.dropWhile Text.isBlank).reverse.takeWhile Text.isBlank).reverse

theorem code_append_rightMargin (l : SourceLine) :
    l.code.toList ++ l.rightMargin = l.beforeComment.dropWhile Text.isBlank := by
  have hcode : l.code.toList = Text.trim l.beforeComment := String.toList_ofList
  rw [hcode, Text.trim, rightMargin, ← List.reverse_append, List.takeWhile_append_dropWhile,
    List.reverse_reverse]

/-- **The parts make up the line.** -/
theorem text_eq (l : SourceLine) :
    l.text.toList = l.leftMargin ++ (l.code.toList ++ (l.rightMargin ++ l.comment)) := by
  rw [← List.append_assoc l.code.toList, code_append_rightMargin, ← List.append_assoc, leftMargin,
    List.takeWhile_append_dropWhile, beforeComment, comment, List.takeWhile_append_dropWhile]

theorem semicolon_not_mem_code (l : SourceLine) : ';' ∉ l.code.toList := by
  intro h
  have hdrop : ';' ∈ l.beforeComment.dropWhile Text.isBlank := by
    rw [← code_append_rightMargin]
    exact List.mem_append_left _ h
  have hmem : ';' ∈ l.beforeComment := (List.dropWhile_suffix _).subset hdrop
  have hne := List.mem_takeWhile_imp hmem
  simp at hne

/-- A comment is nothing, or it begins with its `;`. -/
theorem comment_eq (l : SourceLine) :
    l.comment = [] ∨ ∃ rest, l.comment = ';' :: rest := by
  have hhead := List.head?_dropWhile_not (· ≠ ';') l.text.toList
  rcases hcomment : l.comment with _ | ⟨c, rest⟩
  · exact Or.inl rfl
  · rw [← comment, hcomment] at hhead
    obtain rfl : c = ';' := by simpa using hhead
    exact Or.inr ⟨rest, rfl⟩

/-- Code does not begin with a blank. -/
theorem isBlank_head_code (l : SourceLine) {c : Char} {cs : List Char}
    (h : l.code.toList = c :: cs) : Text.isBlank c = false := by
  have hhead := List.head?_dropWhile_not Text.isBlank l.beforeComment
  rw [← code_append_rightMargin, h] at hhead
  exact hhead

/-! ## Cutting a line and cutting its code -/

/-- The characters that stand in the margins are blanks for the cutting as well. -/
theorem isGap_of_mem_margin {c : Char} (h : c = ' ' ∨ c = '\t' ∨ c = '\r' ∨ c = '\x0c') :
    isGap c = true := by
  rcases h with rfl | rfl | rfl | rfl <;> decide

/-- What comes behind the code leaves no item. -/
theorem scan_behind_code (l : SourceLine) (single : '\n' ∉ l.text.toList)
    (margin : ∀ c ∈ l.rightMargin, isGap c = true) (start : Nat) :
    scan start (l.rightMargin ++ l.comment) = [] := by
  rw [scan_gaps margin]
  rcases l.comment_eq with hcomment | ⟨rest, hcomment⟩
  · rw [hcomment, scan]
  · rw [hcomment]
    refine scan_comment ?_ _
    intro h
    have hmem : '\n' ∈ l.comment := by
      rw [hcomment]
      exact List.mem_cons_of_mem _ h
    exact single ((List.dropWhile_suffix _).subset hmem)

theorem isWordPart_behind_code (l : SourceLine) (margin : ∀ c ∈ l.rightMargin, isGap c = true) :
    ∀ x ∈ (l.rightMargin ++ l.comment).head?, isWordPart x = false := by
  intro x hx
  rcases hright : l.rightMargin with _ | ⟨c, cs⟩
  · rw [hright, List.nil_append] at hx
    rcases l.comment_eq with hcomment | ⟨rest, hcomment⟩
    · rw [hcomment] at hx
      cases hx
    · rw [hcomment] at hx
      cases hx
      decide
  · rw [hright] at hx margin
    obtain rfl : c = x := Option.some.inj hx
    exact isWordPart_of_isGap (margin c List.mem_cons_self)

/-- Code leaves an item unless it is empty. -/
theorem lex_code_eq_nil_iff (l : SourceLine) : lex l.code = [] ↔ l.isBlank = true := by
  rw [isBlank, String.isEmpty_iff, lex]
  constructor
  · intro h
    rcases hcode : l.code.toList with _ | ⟨c, cs⟩
    · exact String.toList_eq_nil_iff.mp hcode
    · rw [hcode] at h
      have hblank := l.isBlank_head_code hcode
      have hgap : isGap c = false := by
        by_contra hgap
        rw [Bool.not_eq_false] at hgap
        rw [isBlank_of_isGap hgap] at hblank
        cases hblank
      have hcomment : c ≠ ';' := by
        rintro rfl
        exact l.semicolon_not_mem_code (hcode ▸ List.mem_cons_self)
      exact absurd h (scan_cons_ne_nil hgap hcomment cs 0)
  · intro h
    rw [h, String.toList_empty, scan]

/-- **Both ways of dropping blanks and comments agree.** If the margins of a line are spaces, tabs, carriage
returns and form feeds, the line is cut into the items of its code, each further to the right by the
bytes of the left margin; and the line is blank just when there are none. -/
theorem lex_text_eq (l : SourceLine) (single : '\n' ∉ l.text.toList)
    (margins : ∀ c ∈ l.leftMargin ++ l.rightMargin, c = ' ' ∨ c = '\t' ∨ c = '\r' ∨ c = '\x0c') :
    lex l.text = (lex l.code).map (moved (byteSize l.leftMargin)) ∧
      (l.isBlank = true ↔ lex l.text = []) := by
  obtain ⟨hleft, hright⟩ := List.forall_mem_append.mp margins
  have left : ∀ c ∈ l.leftMargin, isGap c = true := fun c hc => isGap_of_mem_margin (hleft c hc)
  have right : ∀ c ∈ l.rightMargin, isGap c = true := fun c hc => isGap_of_mem_margin (hright c hc)
  have hlex : lex l.text = (lex l.code).map (moved (byteSize l.leftMargin)) := by
    calc lex l.text
        = scan 0 (l.leftMargin ++ (l.code.toList ++ (l.rightMargin ++ l.comment))) := by
          rw [lex, l.text_eq]
      _ = scan (0 + byteSize l.leftMargin) (l.code.toList ++ (l.rightMargin ++ l.comment)) :=
          scan_gaps left 0 _
      _ = scan (0 + byteSize l.leftMargin) l.code.toList := by
          rw [scan_append l.semicolon_not_mem_code (l.isWordPart_behind_code right),
            l.scan_behind_code single right, List.append_nil]
      _ = (lex l.code).map (moved (byteSize l.leftMargin)) := scan_add 0 _ _
  refine ⟨hlex, ?_⟩
  rw [← l.lex_code_eq_nil_iff, hlex, List.map_eq_nil_iff]

/-- A line with a tab and a space on the left and a form feed before a comment. -/
theorem lex_text_indented :
    let l : SourceLine := ⟨"\t add é1\x0c; r1", "a.s", 1⟩
    '\n' ∉ l.text.toList ∧
      (∀ c ∈ l.leftMargin ++ l.rightMargin, c = ' ' ∨ c = '\t' ∨ c = '\r' ∨ c = '\x0c') ∧
      lex l.text = (lex l.code).map (moved (byteSize l.leftMargin)) ∧
      (l.isBlank = true ↔ lex l.text = []) := by
  intro l
  have single : '\n' ∉ l.text.toList := by decide +kernel
  have hall : (l.leftMargin ++ l.rightMargin).all
      (fun c => c = ' ' ∨ c = '\t' ∨ c = '\r' ∨ c = '\x0c') = true := by decide +kernel
  have margins : ∀ c ∈ l.leftMargin ++ l.rightMargin,
      c = ' ' ∨ c = '\t' ∨ c = '\r' ∨ c = '\x0c' :=
    fun c hc => of_decide_eq_true (List.all_eq_true.mp hall c hc)
  exact ⟨single, margins, l.lex_text_eq single margins⟩

end SourceLine

end ShiftReduce.Assembly
