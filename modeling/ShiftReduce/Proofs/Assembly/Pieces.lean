import Mathlib.Data.List.TakeWhile
import Mathlib.Data.String.Basic
import Mathlib.Tactic.IntervalCases
import ShiftReduce.Assembly.Lexeme

/-!
# Pieces of a line

A line is cut where the next character does not go on with the piece before it. So all there is to know
of the cutting is `scan_piece`: where a piece ends (`Piece.Ends`), its item comes first and the items of
the rest follow. Lines are taken apart by it, piece by piece (`pieces_induction`), and put together: texts
of which one ends where a gap or a comment begins are cut one by one (`scan_append`), and what is cut
does not depend on its place (`scan_add`).
-/

namespace ShiftReduce.Assembly

/-! ## Sizes -/

theorem byteSize_cons (c : Char) (cs : List Char) : byteSize (c :: cs) = c.utf8Size + byteSize cs :=
  rfl

theorem byteSize_append (cs ds : List Char) : byteSize (cs ++ ds) = byteSize cs + byteSize ds := by
  induction cs with
  | nil => exact (Nat.zero_add _).symm
  | cons c cs ih => rw [List.cons_append, byteSize_cons, byteSize_cons, ih, Nat.add_assoc]

theorem byteSize_pos {cs : List Char} (h : cs ≠ []) : 0 < byteSize cs := by
  obtain ⟨c, cs, rfl⟩ := List.exists_cons_of_ne_nil h
  have := c.utf8Size_pos
  rw [byteSize_cons]
  omega

/-- The bytes of a text are those of its UTF-8 form. -/
theorem utf8ByteSize_ofList (cs : List Char) : (String.ofList cs).utf8ByteSize = byteSize cs := by
  induction cs with
  | nil => rfl
  | cons c cs ih =>
      rw [String.ofList_cons, String.utf8ByteSize_append, String.utf8ByteSize_singleton, ih,
        byteSize_cons]

/-! ## What characters begin -/

/-- Gaps are no parts of words. -/
theorem isWordPart_of_isGap {c : Char} (h : isGap c = true) : isWordPart c = false := by
  simp only [isGap, Bool.or_eq_true, decide_eq_true_eq] at h
  rcases h with (((rfl | rfl) | rfl) | rfl) | rfl <;> decide

theorem isWordPart_iff {c : Char} :
    isWordPart c = true ↔ isWordStart c = true ∨ c.isDigit = true := by
  simp only [isWordPart, isWordStart, Char.isAlphanum, Bool.or_eq_true, or_assoc]

/-- The digits, as a list. -/
def digits : List Char := ['0', '1', '2', '3', '4', '5', '6', '7', '8', '9']

theorem mem_digits_iff {c : Char} : c ∈ digits ↔ c.isDigit = true := by
  constructor
  · have hall : digits.all Char.isDigit = true := by decide
    exact List.all_eq_true.mp hall c
  · intro h
    obtain ⟨hlow, hhigh⟩ := Char.isDigit_iff_toNat.mp h
    have hlow : 48 ≤ c.toNat := hlow
    have hhigh : c.toNat ≤ 57 := hhigh
    rw [← c.ofNat_toNat]
    generalize c.toNat = n at hlow hhigh
    interval_cases n <;> decide

theorem isWordStart_of_isDigit {c : Char} (h : c.isDigit = true) : isWordStart c = false := by
  have hall : digits.all (fun c => !isWordStart c) = true := by decide
  simpa using List.all_eq_true.mp hall c (mem_digits_iff.mpr h)

/-- The characters that a piece begins with. -/
def Piece.Begins : Piece → Char → Prop
  | .gap, c => isGap c = true
  | .comment, c => c = ';'
  | .comma, c => c = ','
  | .integer, c => c.isDigit = true
  | .word, c => isWordStart c = true
  | .stray, c => isGap c = false ∧ c ≠ ';' ∧ c ≠ ',' ∧ isWordPart c = false

/-- **The first character tells the piece**, and no two pieces share one. -/
theorem Piece.ofChar_eq_iff {p : Piece} {c : Char} : Piece.ofChar c = p ↔ p.Begins c := by
  constructor
  · rintro rfl
    unfold ofChar
    split
    · assumption
    · split
      · assumption
      · split
        · assumption
        · split
          · assumption
          · split
            · assumption
            · have hpart : ¬ isWordPart c = true := by
                rw [isWordPart_iff]
                exact not_or_intro ‹_› ‹_›
              exact ⟨Bool.eq_false_iff.mpr ‹_›, ‹_›, ‹_›, Bool.eq_false_iff.mpr hpart⟩
  · intro h
    -- what can be in a word is none of the first three
    have apart : isWordPart c = true → ¬ isGap c = true ∧ c ≠ ';' ∧ c ≠ ',' := by
      intro hpart
      refine ⟨?_, ?_, ?_⟩
      · intro hgap
        rw [isWordPart_of_isGap hgap] at hpart
        cases hpart
      · rintro rfl
        cases hpart
      · rintro rfl
        cases hpart
    cases p with
    | gap => exact if_pos h
    | comment =>
        obtain rfl : c = ';' := h
        decide
    | comma =>
        obtain rfl : c = ',' := h
        decide
    | integer =>
        have hdigit : c.isDigit = true := h
        obtain ⟨hgap, hcomment, hcomma⟩ := apart (isWordPart_iff.mpr (Or.inr hdigit))
        rw [ofChar, if_neg hgap, if_neg hcomment, if_neg hcomma, if_pos hdigit]
    | word =>
        have hstart : isWordStart c = true := h
        obtain ⟨hgap, hcomment, hcomma⟩ := apart (isWordPart_iff.mpr (Or.inl hstart))
        have hdigit : ¬ c.isDigit = true := by
          intro hdigit
          rw [isWordStart_of_isDigit hdigit] at hstart
          cases hstart
        rw [ofChar, if_neg hgap, if_neg hcomment, if_neg hcomma, if_neg hdigit, if_pos hstart]
    | stray =>
        obtain ⟨hgap, hcomment, hcomma, hpart⟩ := h
        have hstart : ¬ isWordStart c = true := fun hstart => by
          rw [isWordPart_iff.mpr (Or.inl hstart)] at hpart
          cases hpart
        have hdigit : ¬ c.isDigit = true := fun hdigit => by
          rw [isWordPart_iff.mpr (Or.inr hdigit)] at hpart
          cases hpart
        rw [ofChar, if_neg (by simp [hgap]), if_neg hcomment, if_neg hcomma, if_neg hdigit,
          if_neg hstart]

/-! ## Pieces and what comes after -/

/-- The piece that begins with `c` goes on with `more` and ends before `rest`. -/
structure Piece.Ends (c : Char) (more rest : List Char) : Prop where
  inside : ∀ x ∈ more, (Piece.ofChar c).continues x = true
  after : ∀ x ∈ rest.head?, (Piece.ofChar c).continues x = false

namespace Piece.Ends

variable {c : Char} {more rest : List Char}

theorem takeWhile_rest (h : Piece.Ends c more rest) :
    rest.takeWhile (Piece.ofChar c).continues = [] := by
  rcases rest with _ | ⟨x, rest⟩
  · rfl
  · exact List.takeWhile_cons_of_neg (by simp [h.after x rfl])

theorem takeWhile_eq (h : Piece.Ends c more rest) :
    (more ++ rest).takeWhile (Piece.ofChar c).continues = more := by
  rw [List.takeWhile_append_of_pos h.inside, h.takeWhile_rest, List.append_nil]

theorem dropWhile_eq (h : Piece.Ends c more rest) :
    (more ++ rest).dropWhile (Piece.ofChar c).continues = rest := by
  rw [List.dropWhile_append_of_pos h.inside]
  rcases rest with _ | ⟨x, rest⟩
  · rfl
  · exact List.dropWhile_cons_of_neg (by simp [h.after x rfl])

end Piece.Ends

/-- Each piece ends somewhere. -/
theorem Piece.ends_takeWhile (c : Char) (cs : List Char) :
    Piece.Ends c (cs.takeWhile (Piece.ofChar c).continues)
      (cs.dropWhile (Piece.ofChar c).continues) where
  inside _ hx := List.mem_takeWhile_imp hx
  after x hx := by
    have hhead := List.head?_dropWhile_not (Piece.ofChar c).continues cs
    rw [hx] at hhead
    exact hhead

/-- **A piece and then the rest.** -/
theorem scan_piece {c : Char} {more rest : List Char} (h : Piece.Ends c more rest) (start : Nat) :
    scan start (c :: more ++ rest) =
      ((Piece.ofChar c).item? (String.ofList (c :: more)) start
        (start + byteSize (c :: more))).toList ++
      scan (start + byteSize (c :: more)) rest := by
  rw [List.cons_append, scan, h.takeWhile_eq, h.dropWhile_eq]

/-- Induction over the pieces of a text. -/
@[elab_as_elim]
theorem pieces_induction {motive : List Char → Prop} (nil : motive [])
    (piece : ∀ c more rest, Piece.Ends c more rest → motive rest → motive (c :: more ++ rest))
    (cs : List Char) : motive cs := by
  rcases cs with _ | ⟨c, cs⟩
  · exact nil
  · have hlength := (List.dropWhile_suffix (Piece.ofChar c).continues (l := cs)).length_le
    have hrest := pieces_induction nil piece (cs.dropWhile (Piece.ofChar c).continues)
    have hcut := piece c _ _ (Piece.ends_takeWhile c cs) hrest
    rwa [List.cons_append, List.takeWhile_append_dropWhile] at hcut
termination_by cs.length

/-! ## Places -/

/-- An item of a text, with `n` more bytes before the text. -/
def moved (n : Nat) : Except LexError Lexeme → Except LexError Lexeme
  | .ok l => .ok { l with start := l.start + n, stop := l.stop + n }
  | .error e => .error { e with column := e.column + n }

theorem Piece.item?_add (p : Piece) (text : String) (start stop n : Nat) :
    p.item? text (start + n) (stop + n) = (p.item? text start stop).map (moved n) := by
  cases p with
  | gap => rfl
  | comment => rfl
  | comma => rfl
  | integer => rfl
  | word => rfl
  | stray =>
      have hcolumn : start + n + 1 = start + 1 + n := Nat.add_right_comm start n 1
      rw [item?, item?, hcolumn]
      rfl

/-- **Where a text stands makes no difference** to what it is cut into. -/
theorem scan_add (start n : Nat) (cs : List Char) :
    scan (start + n) cs = (scan start cs).map (moved n) := by
  induction cs using pieces_induction generalizing start with
  | nil => rw [scan, scan, List.map_nil]
  | piece c more rest ends ih =>
      rw [scan_piece ends, scan_piece ends, List.map_append, Nat.add_right_comm start n, ih,
        Piece.item?_add]
      cases (Piece.ofChar c).item? (String.ofList (c :: more)) start
        (start + byteSize (c :: more)) with
      | none => rfl
      | some item => rfl

/-! ## Texts one after the other -/

/-- Only a comment goes on with characters that are not part of a word. -/
theorem Piece.isWordPart_of_continues {p : Piece} {x : Char} (hp : p ≠ .comment)
    (h : p.continues x = true) : isWordPart x = true := by
  cases p with
  | comment => exact absurd rfl hp
  | integer =>
      have hdigit : x.isDigit = true := h
      exact isWordPart_iff.mpr (Or.inr hdigit)
  | word => exact h
  | gap => cases h
  | comma => cases h
  | stray => cases h

/-- A text without comments is cut by itself if what follows does not begin like the rest of a word. -/
theorem scan_append {cs rest : List Char} (plain : ';' ∉ cs)
    (apart : ∀ x ∈ rest.head?, isWordPart x = false) (start : Nat) :
    scan start (cs ++ rest) = scan start cs ++ scan (start + byteSize cs) rest := by
  induction cs using pieces_induction generalizing start with
  | nil =>
      rw [scan, List.nil_append, List.nil_append]
      rfl
  | piece c more after ends ih =>
      have hcomment : Piece.ofChar c ≠ .comment := by
        intro h
        obtain rfl : c = ';' := Piece.ofChar_eq_iff.mp h
        exact plain (by simp)
      have hafter : ';' ∉ after := fun h => plain (List.mem_append_right _ h)
      -- the piece ends where it did, at the end of the text too
      have hends : Piece.Ends c more (after ++ rest) := by
        refine ⟨ends.inside, ?_⟩
        intro x hx
        rcases after with _ | ⟨y, after⟩
        · by_contra hcontinues
          rw [Bool.not_eq_false] at hcontinues
          have hword := Piece.isWordPart_of_continues hcomment hcontinues
          rw [apart x hx] at hword
          cases hword
        · exact ends.after x hx
      rw [List.append_assoc, scan_piece hends, scan_piece ends, ih hafter, byteSize_append,
        List.append_assoc, Nat.add_assoc]

/-! ## What leaves no item -/

theorem scan_gaps {gaps : List Char} (h : ∀ x ∈ gaps, isGap x = true) (start : Nat)
    (rest : List Char) : scan start (gaps ++ rest) = scan (start + byteSize gaps) rest := by
  induction gaps generalizing start with
  | nil => rfl
  | cons x gaps ih =>
      obtain ⟨hx, hgaps⟩ := List.forall_mem_cons.mp h
      have hpiece : Piece.ofChar x = .gap := Piece.ofChar_eq_iff.mpr hx
      have ends : Piece.Ends x [] (gaps ++ rest) := by
        refine ⟨nofun, ?_⟩
        intro y _
        rw [hpiece]
        rfl
      have hscan := scan_piece ends start
      rw [hpiece] at hscan
      rw [byteSize_cons, ← Nat.add_assoc]
      exact hscan.trans (ih hgaps _)

theorem scan_comment {comment : List Char} (h : '\n' ∉ comment) (start : Nat) :
    scan start (';' :: comment) = [] := by
  have ends : Piece.Ends ';' comment [] := by
    refine ⟨?_, nofun⟩
    intro x hx
    have hpiece : Piece.ofChar ';' = .comment := by decide
    rw [hpiece]
    exact decide_eq_true fun heq => h (heq ▸ hx)
  have hscan := scan_piece ends start
  rw [List.append_nil, scan, List.append_nil] at hscan
  exact hscan

/-- A text leaves an item unless it begins with a gap or a comment. -/
theorem scan_cons_ne_nil {c : Char} (gap : isGap c = false) (comment : c ≠ ';') (cs : List Char)
    (start : Nat) : scan start (c :: cs) ≠ [] := by
  have hitem : ∀ text start stop, ((Piece.ofChar c).item? text start stop).toList ≠ [] := by
    intro text start stop
    rw [Piece.ofChar, if_neg (by simp [gap]), if_neg comment]
    split_ifs <;> simp [Piece.item?]
  rw [scan]
  intro h
  exact hitem _ _ _ (List.append_eq_nil_iff.mp h).1

end ShiftReduce.Assembly
