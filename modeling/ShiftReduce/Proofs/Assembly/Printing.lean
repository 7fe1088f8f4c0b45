import ShiftReduce.Proofs.Assembly.Decision

/-!
# Printed instructions

What is printed of an instruction is a line of code for it. The text is made from left to right, while the
lexer has to look ahead for the end of each piece; so the parts are read from right to left, each in front
of a rest that is read already and that does not go on with its last word (`Reads`, `Apart`). The printed
line is then in the form of the original one, and its lexemes stand for the same instruction.
-/

namespace ShiftReduce.Assembly

/-! ## Reading texts -/

/-- A lexeme without its place. -/
def Lexeme.word (l : Lexeme) : Terminal × String := (l.terminal, l.text)

/-- The text is cut into these words without an error, wherever it begins. -/
def Reads (cs : List Char) (words : List (Terminal × String)) : Prop :=
  ∀ start, ∃ lexemes : List Lexeme, scan start cs = lexemes.map .ok ∧
    lexemes.map Lexeme.word = words

/-- The text does not go on with a word or a number before it. -/
def Apart (cs : List Char) : Prop := ∀ x ∈ cs.head?, isWordPart x = false

section

variable {rest more : List Char} {words : List (Terminal × String)} {c : Char}

theorem reads_nil : Reads [] [] := by
  intro start
  rw [scan]
  exact ⟨[], rfl, rfl⟩

theorem reads_comment {comment : List Char} (h : '\n' ∉ comment) : Reads (';' :: comment) [] :=
  fun start => ⟨[], scan_comment h start, rfl⟩

theorem Reads.gap (h : Reads rest words) (gap : isGap c = true) : Reads (c :: rest) words := by
  have gaps : ∀ x ∈ [c], isGap x = true := by simpa using gap
  intro start
  rw [← List.singleton_append, scan_gaps gaps]
  exact h _

/-- A piece before a text that is read. -/
theorem Reads.piece (h : Reads rest words) (ends : Piece.Ends c more rest) {t : Terminal}
    (item : ∀ start stop, (Piece.ofChar c).item? (String.ofList (c :: more)) start stop =
      some (.ok ⟨t, String.ofList (c :: more), start, stop⟩)) :
    Reads (c :: more ++ rest) ((t, String.ofList (c :: more)) :: words) := by
  intro start
  obtain ⟨lexemes, hscan, hwords⟩ := h (start + byteSize (c :: more))
  rw [scan_piece ends, item, hscan]
  exact ⟨_ :: lexemes, rfl, congrArg (_ :: ·) hwords⟩

theorem Reads.comma (h : Reads rest words) : Reads (',' :: rest) ((.comma, ",") :: words) := by
  have ends : Piece.Ends ',' [] rest := ⟨nofun, fun _ _ => rfl⟩
  exact h.piece ends fun _ _ => rfl

/-- A piece that is no comment ends before a text that is apart. -/
theorem Apart.ends (apart : Apart rest) (hc : Piece.ofChar c ≠ .comment)
    (inside : ∀ x ∈ more, (Piece.ofChar c).continues x = true) : Piece.Ends c more rest := by
  refine ⟨inside, fun x hx => ?_⟩
  rw [Bool.eq_false_iff]
  intro hcontinues
  have hpart := Piece.isWordPart_of_continues hc hcontinues
  rw [apart x hx] at hpart
  cases hpart

theorem Reads.integer (h : Reads rest words) (apart : Apart rest)
    (digits : ∀ x ∈ c :: more, x.isDigit = true) :
    Reads (c :: more ++ rest) ((.integer, String.ofList (c :: more)) :: words) := by
  obtain ⟨hc, hmore⟩ := List.forall_mem_cons.mp digits
  have hpiece : Piece.ofChar c = .integer := Piece.ofChar_eq_iff.mpr hc
  have ends : Piece.Ends c more rest := by
    refine apart.ends ?_ ?_ <;> rw [hpiece]
    · nofun
    · exact hmore
  refine h.piece ends fun start stop => ?_
  rw [hpiece]
  rfl

theorem Reads.word (h : Reads rest words) (apart : Apart rest) (first : isWordStart c = true)
    (parts : ∀ x ∈ more, isWordPart x = true) {t : Terminal}
    (taken : Terminal.ofWord (String.ofList (c :: more)) = t) :
    Reads (c :: more ++ rest) ((t, String.ofList (c :: more)) :: words) := by
  have hpiece : Piece.ofChar c = .word := Piece.ofChar_eq_iff.mpr first
  have ends : Piece.Ends c more rest := by
    refine apart.ends ?_ ?_ <;> rw [hpiece]
    · nofun
    · exact parts
  refine h.piece ends fun start stop => ?_
  rw [hpiece, Piece.item?, taken]

end

/-! ## Printed operands -/

def Operand.terminal : Operand → Terminal
  | .register _ => .register
  | .immediate _ => .integer

/-- The lexeme that is printed for an operand, without its place. -/
def Operand.word (a : Operand) : Terminal × String := (a.terminal, a.render)

/-- What is printed for an operand stands for it. -/
theorem Operand.writtenAs_of_word {a : Operand} {l : Lexeme} (h : a.word = l.word) :
    a.WrittenAs l := by
  obtain ⟨hterminal, htext⟩ := Prod.mk.inj h
  cases a with
  | register index => exact .register hterminal.symm (number_of_register hterminal.symm htext.symm)
  | immediate value =>
      refine .immediate hterminal.symm ?_
      have hdigits : l.text.toList = Nat.toDigits 10 value := by
        rw [← htext]
        exact Nat.toList_repr
      rw [number_of_integer hterminal.symm, hdigits, Nat.ofDigitChars_ten_toDigits]

section

variable {rest : List Char} {words : List (Terminal × String)}

theorem reads_operand (a : Operand) (h : Reads rest words) (apart : Apart rest) :
    Reads (a.render.toList ++ rest) (a.word :: words) := by
  cases a with
  | register index =>
      have hword : Operand.word (.register index) =
          (.register, String.ofList ('r' :: Nat.toDigits 10 index)) := by
        rw [← toList_registerName, String.ofList_toList]
        rfl
      have hname : String.ofList ('r' :: Nat.toDigits 10 index) ∈ registerNames := by
        rw [← toList_registerName, String.ofList_toList]
        exact List.mem_map.mpr ⟨index, List.mem_range.mpr index.isLt, rfl⟩
      rw [hword, Operand.render, toList_registerName]
      refine h.word apart rfl ?_ (Terminal.ofWord_eq_register_iff.mpr hname)
      intro x hx
      exact isWordPart_iff.mpr (Or.inr (Text.isDigit_of_mem_toDigits x hx))
  | immediate value =>
      obtain ⟨c, more, hdigits⟩ := List.exists_cons_of_ne_nil (Text.toDigits_ne_nil value)
      have hlist : (Operand.immediate value).render.toList = c :: more := by
        rw [← hdigits]
        exact Nat.toList_repr
      have hword : Operand.word (.immediate value) = (.integer, String.ofList (c :: more)) := by
        rw [← hlist, String.ofList_toList]
        rfl
      rw [hword, hlist]
      refine h.integer apart ?_
      rw [← hdigits]
      exact Text.isDigit_of_mem_toDigits

/-- Operands are printed with a comma and a blank between them. -/
theorem reads_operands (operands : List Operand) (nonempty : operands ≠ []) (h : Reads rest words)
    (apart : Apart rest) :
    Reads ((", ".intercalate (operands.map Operand.render)).toList ++ rest)
      ((operands.map Operand.word).intersperse (.comma, ",") ++ words) := by
  induction operands with
  | nil => exact absurd rfl nonempty
  | cons a operands ih =>
      rcases operands with _ | ⟨b, operands⟩
      · rw [List.map_singleton, String.intercalate_singleton]
        exact reads_operand a h apart
      · -- the comma and the blank stand before what is read by then
        have hrest := ih (List.cons_ne_nil b operands)
        have htext : (", ".intercalate ((a :: b :: operands).map Operand.render)).toList ++ rest =
            a.render.toList ++ ',' :: ' ' ::
              ((", ".intercalate ((b :: operands).map Operand.render)).toList ++ rest) := by
          simp only [List.map_cons, String.intercalate_cons_cons, String.toList_append,
            List.append_assoc]
          rfl
        have hwords : ((a :: b :: operands).map Operand.word).intersperse (.comma, ",") ++ words =
            a.word :: (.comma, ",") ::
              (((b :: operands).map Operand.word).intersperse (.comma, ",") ++ words) := by
          simp only [List.map_cons, List.intersperse_cons_cons, List.cons_append]
        rw [htext, hwords]
        refine reads_operand a ?_ ?_
        · exact (hrest.gap rfl).comma
        · rintro x ⟨⟩
          rfl

end

/-! ## Printed instructions -/

/-- What is printed behind the operands: the code of the operation in a comment, if it has one. -/
def Operation.codeComment (o : Operation) : String :=
  o.code?.elim "" fun code => "  ; op=" ++ toString code

theorem reads_codeComment (o : Operation) :
    Reads o.codeComment.toList [] ∧ Apart o.codeComment.toList := by
  rw [Operation.codeComment]
  cases o.code? with
  | none => exact ⟨reads_nil, nofun⟩
  | some code =>
      have htext : ("  ; op=" ++ toString code).toList =
          ' ' :: ' ' :: ';' :: (" op=".toList ++ Nat.toDigits 10 code) := by
        rw [String.toList_append]
        exact congrArg ("  ; op=".toList ++ ·) Nat.toList_repr
      have hnewline : '\n' ∉ " op=".toList ++ Nat.toDigits 10 code := by
        intro hmem
        rcases List.mem_append.mp hmem with hmem | hmem
        · revert hmem
          decide
        · cases Text.isDigit_of_mem_toDigits _ hmem
      rw [Option.elim_some, htext]
      refine ⟨((reads_comment hnewline).gap rfl).gap rfl, ?_⟩
      rintro x ⟨⟩
      rfl

/-- The name of an operation is in upper case. -/
theorem Operation.upperCase_name {o : Operation} (ho : o ∈ all) : upperCase o.name = o.name :=
  (named?_eq_some_iff.mp (named?_name o ho)).2.symm

theorem reads_name {o : Operation} (ho : o ∈ Operation.all) {rest : List Char}
    {words : List (Terminal × String)} (h : Reads rest words) (apart : Apart rest) :
    Reads (o.name.toList ++ rest) ((.operation, o.name) :: words) := by
  have hnames : ∀ o ∈ Operation.all, o.name.toList.head?.any isWordStart = true ∧
      o.name.toList.all isWordPart = true := by
    decide +kernel
  obtain ⟨hfirst, hparts⟩ := hnames o ho
  have taken : Terminal.ofWord o.name = .operation :=
    Terminal.ofWord_eq_operation_iff.mpr ⟨o, ho, (Operation.upperCase_name ho).symm⟩
  cases hlist : o.name.toList with
  | nil =>
      rw [hlist] at hfirst
      cases hfirst
  | cons c more =>
      have hname : o.name = String.ofList (c :: more) := by rw [← hlist, String.ofList_toList]
      rw [hlist] at hfirst hparts
      rw [hname] at taken ⊢
      have hword := List.forall_mem_cons.mp (List.all_eq_true.mp hparts)
      exact h.word apart hfirst hword.2 taken

/-- **What is printed of an instruction is read** as its operation and its operands. -/
theorem reads_render {i : Instruction} (listed : i.operation ∈ Operation.all) :
    Reads i.render.toList ((.operation, i.operation.name) ::
      (i.operands.map Operand.word).intersperse (.comma, ",")) := by
  obtain ⟨hcomment, apart⟩ := reads_codeComment i.operation
  have hrender : i.render.toList = i.operation.name.toList ++
      ((if i.operands.isEmpty then "" else
        " " ++ ", ".intercalate (i.operands.map Operand.render)).toList ++
          i.operation.codeComment.toList) := by
    rw [Instruction.render, String.toList_append, String.toList_append, List.append_assoc]
    rfl
  rw [hrender]
  cases hoperands : i.operands with
  | nil => exact reads_name listed hcomment apart
  | cons a operands =>
      have hread := reads_operands (a :: operands) (List.cons_ne_nil a operands) hcomment apart
      rw [List.append_nil] at hread
      rw [List.isEmpty_cons, if_neg Bool.false_ne_true, String.toList_append, List.append_assoc]
      refine reads_name listed (hread.gap rfl) ?_
      rintro x ⟨⟩
      rfl

/-! ## Instructions that are read again -/

theorem filter_intersperse {α : Type} {p : α → Bool} {sep : α} (hsep : p sep = false) {xs : List α}
    (hxs : ∀ x ∈ xs, p x = true) : (xs.intersperse sep).filter p = xs := by
  induction xs with
  | nil => rfl
  | cons x xs ih =>
      obtain ⟨hx, hrest⟩ := List.forall_mem_cons.mp hxs
      rcases xs with _ | ⟨y, xs⟩
      · rw [List.intersperse_singleton, List.filter_cons_of_pos hx, List.filter_nil]
      · rw [List.intersperse_cons_cons, List.filter_cons_of_pos hx,
          List.filter_cons_of_neg (by simp [hsep]), ih hrest]

theorem map_intersperse {α β : Type} (f : α → β) (sep : α) (xs : List α) :
    (xs.intersperse sep).map f = (xs.map f).intersperse (f sep) := by
  induction xs with
  | nil => rfl
  | cons x xs ih =>
      rcases xs with _ | ⟨y, xs⟩
      · rfl
      · rw [List.map_cons] at ih
        rw [List.intersperse_cons_cons, List.map_cons, List.map_cons, ih, List.map_cons,
          List.map_cons, List.intersperse_cons_cons]

/-- The operands that are written fill the form. -/
theorem Instruction.WrittenAs.terminals_eq {i : Instruction} {f : Form} {lexemes : List Lexeme}
    (h : i.WrittenAs f lexemes) (hf : f ∈ Form.all)
    (terminals : lexemes.map Lexeme.terminal = f.terminals) :
    f.terminals = .operation :: (i.operands.map Operand.terminal).intersperse .comma := by
  have hforms : ∀ f ∈ Form.all, f.terminals =
      .operation :: (f.terminals.filter Terminal.isOperand).intersperse .comma := by decide
  have hoperands : i.operands.map Operand.terminal = f.terminals.filter Terminal.isOperand := by
    rw [← terminals, List.filter_map, ← List.forall₂_eq_eq_eq, List.forall₂_map_left_iff,
      List.forall₂_map_right_iff]
    refine h.operands.imp fun a l written => ?_
    cases written with
    | register terminal _ => exact terminal.symm
    | immediate terminal _ => exact terminal.symm
  rw [hoperands]
  exact hforms f hf

/-- The words of a printed instruction stand for it. -/
theorem Instruction.WrittenAs.of_words {i : Instruction} {f : Form} {lexemes printed : List Lexeme}
    (h : i.WrittenAs f lexemes) (hwords : printed.map Lexeme.word =
      (.operation, i.operation.name) :: (i.operands.map Operand.word).intersperse (.comma, ",")) :
    i.WrittenAs f printed := by
  refine ⟨h.listed, ?_, h.shape, ?_⟩
  · obtain ⟨first, rest, rfl, hfirst, -⟩ := List.map_eq_cons_iff.mp hwords
    have htext : first.text = i.operation.name := (Prod.mk.inj hfirst).2
    rw [List.head?_cons, Option.map_some, htext, Operation.upperCase_name h.listed]
  · have isOperand : ∀ w ∈ i.operands.map Operand.word, w.1.isOperand = true := by
      intro w hw
      obtain ⟨a, -, rfl⟩ := List.mem_map.mp hw
      cases a <;> rfl
    have hoperands : i.operands.map Operand.word =
        (printed.filter (·.terminal.isOperand)).map Lexeme.word := by
      have hfilter := List.filter_map (f := Lexeme.word) (p := fun w => w.1.isOperand) (l := printed)
      rw [hwords, List.filter_cons_of_neg Bool.false_ne_true, filter_intersperse rfl isOperand] at hfilter
      exact hfilter
    rw [← List.forall₂_eq_eq_eq, List.forall₂_map_left_iff, List.forall₂_map_right_iff] at hoperands
    exact hoperands.imp fun a l => Operand.writtenAs_of_word

/-- **A printed instruction is assembled to itself.** -/
theorem assembleLine_render {line : String} {i : Instruction} (h : assembleLine line = .ok i) :
    assembleLine i.render = .ok i := by
  obtain ⟨f, hf, lexemes, -, terminals, written⟩ := assembleLine_eq_ok_iff.mp h
  obtain ⟨printed, hscan, hwords⟩ := reads_render written.listed 0
  have hterminals : printed.map Lexeme.terminal = f.terminals := by
    have hfirst := congrArg (List.map Prod.fst) hwords
    rw [List.map_map, List.map_cons, map_intersperse, List.map_map] at hfirst
    exact hfirst.trans (written.terminals_eq hf terminals).symm
  exact assembleLine_eq_ok_iff.mpr ⟨f, hf, printed, hscan, hterminals, written.of_words hwords⟩

/-- A directive with the operands of a jump. -/
def rawInstruction : Instruction :=
  ⟨⟨"RAW", .pseudo, none, .long⟩, .registerImmediate,
    [.register ⟨2, by decide⟩, .immediate ⟨7, by decide⟩]⟩

/-- It is printed as `RAW r2, 7`. -/
theorem assembleLine_render_raw : assembleLine "raw r2,007 ; seven" = .ok rawInstruction ∧
    assembleLine rawInstruction.render = .ok rawInstruction :=
  have h : assembleLine "raw r2,007 ; seven" = .ok rawInstruction := by decide +kernel
  ⟨h, assembleLine_render h⟩

end ShiftReduce.Assembly
