import ShiftReduce.Proofs.Assembly.LongestMatch

/-!
# The parts of a line

Nothing is lost where a line is cut. Its items stand apart and in order, each over whole characters
(`Partition.stands`, `Partition.ascending`); what no item stands over are the gaps and the comments
(`Partition.dropped`); and the errors are the characters outside comments that begin no piece
(`Partition.strays`). What is a comment is said here by the characters alone: a `;` begins one that goes
on up to the next line feed.

The argument follows a character to the piece that it belongs to (`exists_owner`), which is by induction
over the pieces, where a piece that is not a comment begins outside of comments.
-/

namespace ShiftReduce.Assembly

/-! ## Places of items -/

def itemText : Except LexError Lexeme → String
  | .ok l => l.text
  | .error e => e.text

/-- The first byte of an item. -/
def itemStart : Except LexError Lexeme → Nat
  | .ok l => l.start
  | .error e => e.column - 1

/-- The byte after the last one of an item. -/
def itemStop : Except LexError Lexeme → Nat
  | .ok l => l.stop
  | .error e => e.column - 1 + e.text.utf8ByteSize

/-- The item of a piece has its text and its place. -/
theorem Piece.place_of_item? {p : Piece} {text : List Char} {start : Nat}
    {i : Except LexError Lexeme}
    (h : p.item? (String.ofList text) start (start + byteSize text) = some i) :
    itemText i = String.ofList text ∧ itemStart i = start ∧ itemStop i = start + byteSize text := by
  cases p with
  | gap => cases h
  | comment => cases h
  | comma =>
      cases h
      exact ⟨rfl, rfl, rfl⟩
  | integer =>
      cases h
      exact ⟨rfl, rfl, rfl⟩
  | word =>
      cases h
      exact ⟨rfl, rfl, rfl⟩
  | stray =>
      cases h
      exact ⟨rfl, rfl, congrArg (start + ·) (utf8ByteSize_ofList text)⟩

/-- Only gaps and comments leave no item. -/
theorem Piece.item?_eq_none_iff {p : Piece} {text : String} {start stop : Nat} :
    p.item? text start stop = none ↔ p = .gap ∨ p = .comment := by
  cases p <;> simp [item?]

/-- Each item is that of a piece, which stands somewhere in the text. -/
theorem exists_piece_of_mem_scan {cs : List Char} {start : Nat} {i : Except LexError Lexeme}
    (h : i ∈ scan start cs) :
    ∃ front c more rest, cs = front ++ (c :: more ++ rest) ∧ Piece.Ends c more rest ∧
      (Piece.ofChar c).item? (String.ofList (c :: more)) (start + byteSize front)
        (start + byteSize front + byteSize (c :: more)) = some i := by
  induction cs using pieces_induction generalizing start with
  | nil =>
      rw [scan] at h
      cases h
  | piece c more rest ends ih =>
      rw [scan_piece ends, List.mem_append, Option.mem_toList] at h
      rcases h with h | h
      · exact ⟨[], c, more, rest, rfl, ends, h⟩
      · obtain ⟨front, d, more', rest', rfl, ends', hitem⟩ := ih h
        refine ⟨c :: more ++ front, d, more', rest', by simp, ends', ?_⟩
        rw [byteSize_append, ← Nat.add_assoc]
        exact hitem

theorem itemStart_of_mem_scan {cs : List Char} {start : Nat} {i : Except LexError Lexeme}
    (h : i ∈ scan start cs) : start ≤ itemStart i ∧ itemStart i < itemStop i := by
  obtain ⟨front, c, more, rest, -, -, hitem⟩ := exists_piece_of_mem_scan h
  obtain ⟨-, hstart, hstop⟩ := Piece.place_of_item? hitem
  have hpos := byteSize_pos (List.cons_ne_nil c more)
  omega

/-- Items come one after the other. -/
theorem pairwise_scan (start : Nat) (cs : List Char) :
    (scan start cs).Pairwise fun i j => itemStop i ≤ itemStart j := by
  induction cs using pieces_induction generalizing start with
  | nil =>
      rw [scan]
      exact .nil
  | piece c more rest ends ih =>
      rw [scan_piece ends, List.pairwise_append]
      refine ⟨?_, ih _, ?_⟩
      · cases (Piece.ofChar c).item? (String.ofList (c :: more)) start
          (start + byteSize (c :: more)) with
        | none => exact .nil
        | some i => exact List.pairwise_singleton _ i
      · intro i hi j hj
        rw [(Piece.place_of_item? (Option.mem_toList.mp hi)).2.2]
        exact (itemStart_of_mem_scan hj).1

/-! ## Comments -/

/-- A `;` stands in the text and no line feed behind it. -/
def OpensComment (cs : List Char) : Prop := ∃ front behind, cs = front ++ ';' :: behind ∧ '\n' ∉ behind

/-- The character behind a text is part of a comment: there is a `;` before it, or it is one, and from then on
there is no line feed. -/
def InComment (before : List Char) (c : Char) : Prop := OpensComment (before ++ [c])

/-- Only a `;` opens a comment. -/
theorem OpensComment.of_append {cs ds : List Char} (h : OpensComment (cs ++ ds)) (hds : ';' ∉ ds) :
    OpensComment cs := by
  obtain ⟨front, behind, heq, hnewline⟩ := h
  rcases List.append_eq_append_iff.mp heq with ⟨mid, rfl, hmid⟩ | ⟨mid, rfl, hmid⟩
  · exact absurd (hmid ▸ List.mem_append_right _ List.mem_cons_self) hds
  · rcases mid with _ | ⟨c, mid⟩
    · rw [List.nil_append] at hmid
      exact absurd (hmid ▸ List.mem_cons_self) hds
    · obtain ⟨rfl, rfl⟩ := List.cons.inj hmid
      exact ⟨front, mid, rfl, fun h => hnewline (List.mem_append_left _ h)⟩

/-- A line feed ends every comment. -/
theorem not_inComment_newline (before : List Char) : ¬ InComment before '\n' := by
  rintro ⟨front, behind, heq, hnewline⟩
  rcases List.eq_nil_or_concat' behind with rfl | ⟨behind, c, rfl⟩
  · have hlast := (List.append_inj' heq rfl).2
    cases hlast
  · rw [← List.cons_append, ← List.append_assoc] at heq
    have hlast := (List.append_inj' heq rfl).2
    cases hlast
    exact hnewline (by simp)

/-- A text that begins outside of comments behind another. -/
def BeginsOutside (before cs : List Char) : Prop := ∀ c ∈ cs.head?, OpensComment before → c = '\n'

theorem beginsOutside_nil (cs : List Char) : BeginsOutside [] cs := by
  rintro c - ⟨front, behind, heq, -⟩
  cases front <;> cases heq

/-- A piece that is not a comment has no part in one. -/
theorem Piece.Ends.not_opensComment {before more rest : List Char} {c : Char}
    (ends : Piece.Ends c more rest) (outside : BeginsOutside before (c :: more ++ rest))
    (hcomment : Piece.ofChar c ≠ .comment) {part : List Char} (hpart : part <+: more) :
    ¬ OpensComment (before ++ c :: part) := by
  intro h
  have hsemicolon : ';' ∉ part := by
    intro hmem
    have hword := Piece.isWordPart_of_continues hcomment (ends.inside _ (hpart.subset hmem))
    cases hword
  have hfirst : OpensComment (before ++ [c]) := by
    rw [← List.singleton_append, ← List.append_assoc] at h
    exact h.of_append hsemicolon
  have hc : ';' ∉ [c] := by
    rw [List.mem_singleton]
    rintro rfl
    exact hcomment (by decide)
  obtain rfl := outside c rfl (hfirst.of_append hc)
  exact not_inComment_newline before hfirst

/-- What comes after a piece begins outside of comments again. -/
theorem Piece.Ends.beginsOutside {before more rest : List Char} {c : Char}
    (ends : Piece.Ends c more rest) (outside : BeginsOutside before (c :: more ++ rest)) :
    BeginsOutside (before ++ c :: more) rest := by
  intro x hx hopens
  by_cases hcomment : Piece.ofChar c = .comment
  · have hx := ends.after x hx
    rw [hcomment] at hx
    simpa [Piece.continues] using hx
  · exact absurd hopens (ends.not_opensComment outside hcomment (List.prefix_refl more))

/-! ## The piece of a character -/

/-- The piece that begins with `d` at byte `place` and goes on with `more` is the one that the character `c`
behind `front` belongs to, in a text that begins at byte `start` behind `before`. -/
structure Owner (start : Nat) (before cs front : List Char) (c : Char) (place : Nat) (d : Char)
    (more : List Char) : Prop where
  inside : ∀ x ∈ more, (Piece.ofChar d).continues x = true
  part : (c = d ∧ place = start + byteSize front) ∨ (Piece.ofChar d).continues c = true
  comment : InComment (before ++ front) c ↔ Piece.ofChar d = .comment
  covered : ∀ b, start + byteSize front ≤ b → b < start + byteSize front + c.utf8Size →
    ∀ i, (i ∈ scan start cs ∧ itemStart i ≤ b ∧ b < itemStop i) ↔
      (Piece.ofChar d).item? (String.ofList (d :: more)) place
        (place + byteSize (d :: more)) = some i

/-- A character of the first piece belongs to it. -/
theorem Piece.Ends.owner {before more rest front behind : List Char} {c d : Char}
    (ends : Piece.Ends d more rest) (outside : BeginsOutside before (d :: more ++ rest))
    (hpiece : d :: more = front ++ c :: behind) (start : Nat) :
    Owner start before (d :: more ++ rest) front c start d more where
  inside := ends.inside
  part := by
    rcases front with _ | ⟨x, front⟩
    · obtain ⟨rfl, -⟩ := List.cons.inj hpiece
      exact Or.inl ⟨rfl, rfl⟩
    · obtain ⟨rfl, rfl⟩ := List.cons.inj hpiece
      exact Or.inr (ends.inside c (by simp))
  comment := by
    have hpart : ∃ part, front ++ [c] = d :: part ∧ part <+: more := by
      rcases front with _ | ⟨x, front⟩
      · obtain ⟨rfl, -⟩ := List.cons.inj hpiece
        exact ⟨[], rfl, List.nil_prefix⟩
      · obtain ⟨rfl, rfl⟩ := List.cons.inj hpiece
        exact ⟨front ++ [c], rfl, behind, by simp⟩
    obtain ⟨part, hfront, hpart⟩ := hpart
    rw [InComment, List.append_assoc, hfront]
    constructor
    · intro hopens
      by_contra hcomment
      exact ends.not_opensComment outside hcomment hpart hopens
    · intro hcomment
      obtain rfl : d = ';' := Piece.ofChar_eq_iff.mp hcomment
      refine ⟨before, part, rfl, fun hmem => ?_⟩
      have hnewline := ends.inside _ (hpart.subset hmem)
      rw [hcomment] at hnewline
      cases hnewline
  covered b hlow hhigh i := by
    have hsize : byteSize (d :: more) = byteSize front + (c.utf8Size + byteSize behind) := by
      rw [hpiece, byteSize_append, byteSize_cons]
    rw [scan_piece ends, List.mem_append, Option.mem_toList]
    constructor
    · rintro ⟨hmem | hmem, hstart, -⟩
      · exact hmem
      · -- later items begin after the piece
        have := (itemStart_of_mem_scan hmem).1
        omega
    · intro hitem
      obtain ⟨-, hstart, hstop⟩ := Piece.place_of_item? hitem
      refine ⟨Or.inl hitem, ?_, ?_⟩
      · omega
      · omega

/-- A piece before does not matter for the piece of a character. -/
theorem Owner.behind {before more rest front : List Char} {c d e : Char} {more' : List Char}
    {start place : Nat} (ends : Piece.Ends e more' rest)
    (owner : Owner (start + byteSize (e :: more')) (before ++ e :: more') rest front c place d more) :
    Owner start before (e :: more' ++ rest) (e :: more' ++ front) c place d more where
  inside := owner.inside
  part := by
    rw [byteSize_append, ← Nat.add_assoc]
    exact owner.part
  comment := by
    rw [← List.append_assoc]
    exact owner.comment
  covered b hlow hhigh i := by
    rw [byteSize_append, ← Nat.add_assoc] at hlow hhigh
    rw [← owner.covered b hlow hhigh i, scan_piece ends, List.mem_append, Option.mem_toList]
    constructor
    · rintro ⟨hmem | hmem, hstart, hstop⟩
      · -- the piece before ends too early
        have := (Piece.place_of_item? hmem).2.2
        omega
      · exact ⟨hmem, hstart, hstop⟩
    · rintro ⟨hmem, hplace⟩
      exact ⟨Or.inr hmem, hplace⟩

/-- **Each character belongs to a piece.** -/
theorem exists_owner {before cs front behind : List Char} {c : Char}
    (outside : BeginsOutside before cs) (hcs : cs = front ++ c :: behind) (start : Nat) :
    ∃ place d more, Owner start before cs front c place d more := by
  induction cs using pieces_induction generalizing before front start with
  | nil => cases front <;> cases hcs
  | piece e more rest ends ih =>
      rcases List.append_eq_append_iff.mp hcs with ⟨mid, rfl, hmid⟩ | ⟨mid, hmid, hrest⟩
      · obtain ⟨place, d, more', owner⟩ := ih (ends.beginsOutside outside) hmid
          (start + byteSize (e :: more))
        exact ⟨place, d, more', owner.behind ends⟩
      · rcases mid with _ | ⟨x, mid⟩
        · -- the character is the first one behind the piece
          rw [List.append_nil] at hmid
          subst hmid
          have hfirst : rest = [] ++ c :: behind := hrest.symm
          obtain ⟨place, d, more', owner⟩ := ih (ends.beginsOutside outside) hfirst
            (start + byteSize (e :: more))
          have hbehind := owner.behind ends
          rw [List.append_nil] at hbehind
          exact ⟨place, d, more', hbehind⟩
        · obtain ⟨rfl, -⟩ := List.cons.inj hrest
          exact ⟨start, e, more, ends.owner outside hmid start⟩

namespace Owner

variable {start place : Nat} {before cs front more : List Char} {c d : Char}

/-- Outside of comments, gaps are what belongs to gaps. -/
theorem isGap_iff (h : Owner start before cs front c place d more)
    (hcomment : Piece.ofChar d ≠ .comment) : isGap c = true ↔ Piece.ofChar d = .gap := by
  rcases h.part with ⟨rfl, -⟩ | hcontinues
  · show Piece.gap.Begins c ↔ _
    exact Piece.ofChar_eq_iff.symm
  · have hpart := Piece.isWordPart_of_continues hcomment hcontinues
    constructor
    · intro hgap
      rw [isWordPart_of_isGap hgap] at hpart
      cases hpart
    · intro hgap
      rw [hgap] at hcontinues
      cases hcontinues

/-- An item stands over a character unless this is a gap or part of a comment. -/
theorem exists_item_iff (h : Owner start before cs front c place d more) {b : Nat}
    (hlow : start + byteSize front ≤ b) (hhigh : b < start + byteSize front + c.utf8Size) :
    (∃ i ∈ scan start cs, itemStart i ≤ b ∧ b < itemStop i) ↔
      ¬ (isGap c = true ∨ InComment (before ++ front) c) := by
  rw [exists_congr (h.covered b hlow hhigh), ← Option.isSome_iff_exists, ← Option.ne_none_iff_isSome,
    Ne, Piece.item?_eq_none_iff, h.comment]
  by_cases hcomment : Piece.ofChar d = .comment
  · simp [hcomment]
  · rw [h.isGap_iff hcomment]

/-- A character outside of comments that begins no piece is one by itself. -/
theorem eq_of_begins_stray (h : Owner start before cs front c place d more)
    (outside : ¬ InComment (before ++ front) c) (hstray : Piece.stray.Begins c) :
    c = d ∧ place = start + byteSize front ∧ more = [] := by
  have hcomment : Piece.ofChar d ≠ .comment := fun hcomment => outside (h.comment.mpr hcomment)
  rcases h.part with ⟨rfl, hplace⟩ | hcontinues
  · refine ⟨rfl, hplace, List.eq_nil_iff_forall_not_mem.mpr ?_⟩
    intro x hx
    have hinside := h.inside x hx
    rw [Piece.ofChar_eq_iff.mpr hstray] at hinside
    cases hinside
  · have hpart := Piece.isWordPart_of_continues hcomment hcontinues
    rw [hstray.2.2.2] at hpart
    cases hpart

end Owner

/-! ## Characters at places -/

/-- The character begins at a byte of the line. -/
def StartsAt (line : List Char) (byte : Nat) (c : Char) : Prop :=
  ∃ before after, line = before ++ c :: after ∧ byteSize before = byte

/-- Texts of as many bytes at the beginning of a line are the same. -/
theorem append_inj_of_byteSize {a b c d : List Char} (h : a ++ c = b ++ d)
    (hsize : byteSize a = byteSize b) : a = b ∧ c = d := by
  rcases List.append_eq_append_iff.mp h with ⟨mid, rfl, rfl⟩ | ⟨mid, rfl, rfl⟩
  · rw [byteSize_append] at hsize
    rcases mid with _ | ⟨x, mid⟩
    · exact ⟨(List.append_nil a).symm, rfl⟩
    · have := byteSize_pos (List.cons_ne_nil x mid)
      omega
  · rw [byteSize_append] at hsize
    rcases mid with _ | ⟨x, mid⟩
    · exact ⟨List.append_nil b, rfl⟩
    · have := byteSize_pos (List.cons_ne_nil x mid)
      omega

/-! ## Words -/

/-- A lexeme that begins like a word. -/
def Lexeme.IsWord (l : Lexeme) : Prop := ∃ c more, l.text.toList = c :: more ∧ isWordStart c = true

theorem Operation.isSome_named?_iff {word : String} :
    (Operation.named? word).isSome ↔ ∃ o ∈ Operation.all, o.name = Operation.upperCase word := by
  rw [Operation.named?, List.find?_isSome]
  simp only [decide_eq_true_eq]

/-- No register is an operation. -/
theorem named?_register : ∀ name ∈ registerNames, Operation.named? name = none := by
  decide +kernel

namespace Terminal

variable {word : String}

theorem ofWord_eq_register_iff : ofWord word = .register ↔ word ∈ registerNames := by
  unfold ofWord
  split_ifs with hregister hoperation
  · simp [hregister]
  · simp [hregister]
  · simp [hregister]

theorem ofWord_eq_operation_iff :
    ofWord word = .operation ↔ ∃ o ∈ Operation.all, o.name = Operation.upperCase word := by
  rw [← Operation.isSome_named?_iff]
  unfold ofWord
  split_ifs with hregister hoperation
  · simp [named?_register word hregister]
  · simp [hoperation]
  · simp [hoperation]

theorem ofWord_eq_identifier_iff :
    ofWord word = .identifier ↔ ofWord word ≠ .register ∧ ofWord word ≠ .operation := by
  unfold ofWord
  split_ifs <;> simp

end Terminal

/-! ## Partitions -/

/-- A line and what is found in it. -/
structure Partition (line : List Char) (items : List (Except LexError Lexeme)) : Prop where
  /-- No item is empty, and each ends before the next begins. -/
  nonempty : ∀ i ∈ items, itemStart i < itemStop i
  ascending : items.Pairwise fun i j => itemStop i ≤ itemStart j
  /-- Each item has its text at its place, between whole characters. -/
  stands : ∀ i ∈ items, ∃ before after, line = before ++ (itemText i).toList ++ after ∧
    byteSize before = itemStart i ∧ byteSize (before ++ (itemText i).toList) = itemStop i
  column : ∀ e, .error e ∈ items → e.column = itemStart (.error e) + 1
  /-- The bytes of gaps and comments are those that no item stands over. -/
  dropped : ∀ before c after, line = before ++ c :: after → ∀ b, byteSize before ≤ b →
    b < byteSize (before ++ [c]) →
      ((∃ i ∈ items, itemStart i ≤ b ∧ b < itemStop i) ↔ ¬ (isGap c = true ∨ InComment before c))
  /-- The errors are the characters outside of comments that nothing begins with. -/
  strays : ∀ e, .error e ∈ items ↔ ∃ before c after, line = before ++ c :: after ∧
    ¬ InComment before c ∧ (isGap c = false ∧ c ≠ ';' ∧ c ≠ ',' ∧ isWordPart c = false) ∧
      e = ⟨String.ofList [c], byteSize before + 1⟩
  /-- Words and numbers go on as far as they can. -/
  words : ∀ l, .ok l ∈ items → l.IsWord → ∀ c, StartsAt line l.stop c → isWordPart c = false
  integers : ∀ l, .ok l ∈ items → l.terminal = .integer →
    ∀ c, StartsAt line l.stop c → c.isDigit = false
  register_iff : ∀ l, .ok l ∈ items → l.IsWord → (l.terminal = .register ↔ l.text ∈ registerNames)
  operation_iff : ∀ l, .ok l ∈ items → l.IsWord →
    (l.terminal = .operation ↔ ∃ o ∈ Operation.all, o.name = Operation.upperCase l.text)
  identifier_iff : ∀ l, .ok l ∈ items → l.IsWord →
    (l.terminal = .identifier ↔ l.terminal ≠ .register ∧ l.terminal ≠ .operation)

section

variable {line : List Char}

theorem stands_of_mem_scan {i : Except LexError Lexeme} (h : i ∈ scan 0 line) :
    ∃ before after, line = before ++ (itemText i).toList ++ after ∧
      byteSize before = itemStart i ∧ byteSize (before ++ (itemText i).toList) = itemStop i := by
  obtain ⟨front, c, more, rest, hline, -, hitem⟩ := exists_piece_of_mem_scan h
  obtain ⟨htext, hstart, hstop⟩ := Piece.place_of_item? hitem
  refine ⟨front, rest, ?_, ?_, ?_⟩
  · rw [htext, String.toList_ofList, List.append_assoc]
    exact hline
  · rw [hstart, Nat.zero_add]
  · rw [htext, String.toList_ofList, byteSize_append, hstop, Nat.zero_add]

/-- An error is a stray character. -/
theorem exists_stray_of_mem_scan {e : LexError} {start : Nat} (h : .error e ∈ scan start line) :
    ∃ before c after, line = before ++ c :: after ∧ Piece.stray.Begins c ∧
      e = ⟨String.ofList [c], start + byteSize before + 1⟩ := by
  obtain ⟨front, c, more, rest, rfl, ends, hitem⟩ := exists_piece_of_mem_scan h
  have hstray : Piece.ofChar c = .stray := by
    generalize Piece.ofChar c = k at hitem
    cases k with
    | stray => rfl
    | _ => cases hitem
  have hmore : more = [] := by
    refine List.eq_nil_iff_forall_not_mem.mpr fun x hx => ?_
    have hinside := ends.inside x hx
    rw [hstray] at hinside
    cases hinside
  subst hmore
  rw [hstray] at hitem
  cases hitem
  exact ⟨front, c, rest, rfl, Piece.ofChar_eq_iff.mp hstray, rfl⟩

theorem error_mem_scan_iff {e : LexError} : .error e ∈ scan 0 line ↔
    ∃ before c after, line = before ++ c :: after ∧ ¬ InComment before c ∧
      Piece.stray.Begins c ∧ e = ⟨String.ofList [c], byteSize before + 1⟩ := by
  constructor
  · intro h
    obtain ⟨before, c, after, hline, hstray, rfl⟩ := exists_stray_of_mem_scan h
    rw [Nat.zero_add] at h
    obtain ⟨place, d, more, owner⟩ := exists_owner (beginsOutside_nil _) hline 0
    have hpos := c.utf8Size_pos
    have hcovered := (owner.exists_item_iff (b := byteSize before) (by omega) (by omega)).mp
      ⟨_, h, Nat.le_refl _, by
        rw [itemStop, utf8ByteSize_ofList, byteSize_cons]
        simp only [Nat.add_sub_cancel]
        omega⟩
    refine ⟨before, c, after, hline, fun hcomment => hcovered (Or.inr hcomment), hstray, ?_⟩
    rw [Nat.zero_add]
  · rintro ⟨before, c, after, hline, hcomment, hstray, rfl⟩
    obtain ⟨place, d, more, owner⟩ := exists_owner (beginsOutside_nil _) hline 0
    obtain ⟨rfl, rfl, rfl⟩ := owner.eq_of_begins_stray hcomment hstray
    have hpos := c.utf8Size_pos
    have hitem : (Piece.ofChar c).item? (String.ofList [c]) (0 + byteSize before)
        (0 + byteSize before + byteSize [c]) =
          some (.error ⟨String.ofList [c], 0 + byteSize before + 1⟩) := by
      rw [Piece.ofChar_eq_iff.mpr hstray]
      rfl
    have hmem := ((owner.covered (0 + byteSize before) (Nat.le_refl _) (by omega) _).mpr hitem).1
    rwa [Nat.zero_add] at hmem

/-- The lexeme of a piece, and what stands behind it. -/
theorem exists_piece_of_ok_mem_scan {l : Lexeme} (h : .ok l ∈ scan 0 line) :
    ∃ c more, l.text.toList = c :: more ∧
      (Piece.ofChar c).item? l.text l.start l.stop = some (.ok l) ∧
      ∀ x, StartsAt line l.stop x → (Piece.ofChar c).continues x = false := by
  obtain ⟨front, c, more, rest, hline, ends, hitem⟩ := exists_piece_of_mem_scan h
  obtain ⟨htext, hstart, hstop⟩ := Piece.place_of_item? hitem
  simp only [itemText, itemStart, itemStop] at htext hstart hstop
  refine ⟨c, more, by rw [htext, String.toList_ofList], ?_, ?_⟩
  · rw [htext, hstart, hstop]
    exact hitem
  · rintro x ⟨before, after, hline', hbyte⟩
    have hfront : front ++ c :: more ++ rest = before ++ x :: after := by
      rw [← hline', hline, List.append_assoc]
    have hsize : byteSize (front ++ c :: more) = byteSize before := by
      rw [byteSize_append, hbyte, hstop, Nat.zero_add]
    obtain ⟨-, rfl⟩ := append_inj_of_byteSize hfront hsize
    exact ends.after x rfl

/-- A word is told by its text, and no part of a word comes after it. -/
theorem word_of_ok_mem_scan {l : Lexeme} (h : .ok l ∈ scan 0 line) (hword : l.IsWord) :
    l.terminal = .ofWord l.text ∧ ∀ x, StartsAt line l.stop x → isWordPart x = false := by
  obtain ⟨c, more, htext, hitem, hafter⟩ := exists_piece_of_ok_mem_scan h
  obtain ⟨d, more', htext', hstart⟩ := hword
  obtain ⟨rfl, -⟩ := List.cons.inj (htext.symm.trans htext')
  have hpiece : Piece.ofChar c = .word := Piece.ofChar_eq_iff.mpr hstart
  rw [hpiece] at hitem hafter
  refine ⟨?_, hafter⟩
  have hlexeme := congrArg Lexeme.terminal (Except.ok.inj (Option.some.inj hitem))
  exact hlexeme.symm

theorem integer_of_ok_mem_scan {l : Lexeme} (h : .ok l ∈ scan 0 line)
    (hinteger : l.terminal = .integer) : ∀ x, StartsAt line l.stop x → x.isDigit = false := by
  obtain ⟨c, more, -, hitem, hafter⟩ := exists_piece_of_ok_mem_scan h
  generalize Piece.ofChar c = k at hitem hafter
  cases k with
  | integer => exact hafter
  | word =>
      have hlexeme := congrArg Lexeme.terminal (Except.ok.inj (Option.some.inj hitem))
      rw [hinteger] at hlexeme
      simp only [Terminal.ofWord] at hlexeme
      split_ifs at hlexeme
  | comma =>
      have hlexeme := congrArg Lexeme.terminal (Except.ok.inj (Option.some.inj hitem))
      rw [hinteger] at hlexeme
      cases hlexeme
  | gap => cases hitem
  | comment => cases hitem
  | stray => cases hitem

end

/-- **Lines are cut by longest matches, and nothing is lost.** -/
theorem lex_partition (line : String) :
    (∀ items, LongestMatches 0 line.toList items ↔ items = lex line) ∧
      Partition line.toList (lex line) := by
  refine ⟨fun items => longestMatches_iff, ?_⟩
  constructor
  · exact fun i hi => (itemStart_of_mem_scan hi).2
  · exact pairwise_scan 0 line.toList
  · exact fun i hi => stands_of_mem_scan hi
  · intro e he
    obtain ⟨before, c, after, -, -, rfl⟩ := exists_stray_of_mem_scan he
    rfl
  · intro before c after hline b hlow hhigh
    obtain ⟨place, d, more, owner⟩ := exists_owner (beginsOutside_nil _) hline 0
    rw [byteSize_append] at hhigh
    have hsize : byteSize [c] = c.utf8Size := rfl
    exact owner.exists_item_iff (by omega) (by omega)
  · exact fun e => error_mem_scan_iff
  · exact fun l hl hword => (word_of_ok_mem_scan hl hword).2
  · exact fun l hl hinteger => integer_of_ok_mem_scan hl hinteger
  · intro l hl hword
    rw [(word_of_ok_mem_scan hl hword).1]
    exact Terminal.ofWord_eq_register_iff
  · intro l hl hword
    rw [(word_of_ok_mem_scan hl hword).1]
    exact Terminal.ofWord_eq_operation_iff
  · intro l hl hword
    rw [(word_of_ok_mem_scan hl hword).1]
    exact Terminal.ofWord_eq_identifier_iff

end ShiftReduce.Assembly
