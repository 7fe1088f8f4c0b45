import ShiftReduce.Assembly.Line
import ShiftReduce.Proofs.Assembly.Partition
import ShiftReduce.Proofs.Grammar.Authoring

/-!
# How instructions are written

An instruction in some form is its lexemes read off one by one: the first names the operation, and each
register and each number is an operand (`Instruction.WrittenAs`). The texts of lexemes are known
(`Lexeme.Spelled`), so the reading of operands fails for one reason only, that a number is too large, and
otherwise it results in the instruction that is written (`ofShape_eq_ok_iff`).
-/

namespace ShiftReduce.Assembly

/-! ## What is written -/

/-- Whether a lexeme of the terminal stands for an operand. -/
def Terminal.isOperand (t : Terminal) : Bool := t = .register || t = .integer

/-- The number of a register, behind its `r`, or of an integer, in decimal. -/
def Lexeme.number (l : Lexeme) : Nat :=
  Nat.ofDigitChars 10 (l.text.toList.drop (if l.terminal = .register then 1 else 0)) 0

/-- The lexeme is an integer that is too large for an immediate operand. -/
def Lexeme.IsLarge (l : Lexeme) : Prop :=
  l.terminal = .integer ∧ Nat.pow 2 immediateBits ≤ l.number

/-- The operand is the one that the lexeme stands for. -/
inductive Operand.WrittenAs : Operand → Lexeme → Prop
  | register {index : Fin registerCount} {l : Lexeme} (terminal : l.terminal = .register)
      (number : l.number = index.val) : WrittenAs (.register index) l
  | immediate {value : Fin (Nat.pow 2 immediateBits)} {l : Lexeme}
      (terminal : l.terminal = .integer) (number : l.number = value.val) :
      WrittenAs (.immediate value) l

/-- The instruction is the one that lexemes in the form stand for. -/
structure Instruction.WrittenAs (i : Instruction) (f : Form) (lexemes : List Lexeme) : Prop where
  listed : i.operation ∈ Operation.all
  name : lexemes.head?.map (fun l => Operation.upperCase l.text) = some i.operation.name
  shape : i.shape = f.shape
  operands : List.Forall₂ Operand.WrittenAs i.operands (lexemes.filter (·.terminal.isOperand))

/-! ## How lexemes are spelled -/

/-- The text of a lexeme is one that its terminal may have. -/
def Lexeme.Spelled (l : Lexeme) : Prop :=
  match l.terminal with
  | .operation => ∃ o ∈ Operation.all, o.name = Operation.upperCase l.text
  | .register => l.text ∈ registerNames
  | .integer => l.text.toList ≠ [] ∧ ∀ c ∈ l.text.toList, c.isDigit = true
  | .identifier => True
  | .comma => True

/-- A word is spelled as what it is taken for. -/
theorem spelled_ofWord (word : String) (start stop : Nat) :
    (Lexeme.mk (.ofWord word) word start stop).Spelled := by
  rw [Lexeme.Spelled]
  cases h : Terminal.ofWord word with
  | operation => exact Terminal.ofWord_eq_operation_iff.mp h
  | register => exact Terminal.ofWord_eq_register_iff.mp h
  | identifier => trivial
  | comma => trivial
  | integer =>
      rw [Terminal.ofWord] at h
      split_ifs at h

theorem spelled_of_mem_scan {cs : List Char} {start : Nat} {l : Lexeme}
    (h : .ok l ∈ scan start cs) : l.Spelled := by
  obtain ⟨front, c, more, rest, -, ends, hitem⟩ := exists_piece_of_mem_scan h
  cases hpiece : Piece.ofChar c with
  | word =>
      rw [hpiece] at hitem
      cases hitem
      exact spelled_ofWord _ _ _
  | integer =>
      have hdigits : ∀ x ∈ c :: more, x.isDigit = true := by
        refine List.forall_mem_cons.mpr ⟨Piece.ofChar_eq_iff.mp hpiece, fun x hx => ?_⟩
        have hinside := ends.inside x hx
        rw [hpiece] at hinside
        exact hinside
      rw [hpiece] at hitem
      cases hitem
      show _ ≠ [] ∧ _
      rw [String.toList_ofList]
      exact ⟨List.cons_ne_nil c more, hdigits⟩
  | comma =>
      rw [hpiece] at hitem
      cases hitem
      trivial
  | _ =>
      rw [hpiece] at hitem
      cases hitem

/-! ## Operands -/

theorem toList_registerName (k : Nat) : ("r" ++ toString k).toList = 'r' :: Nat.toDigits 10 k := by
  rw [String.toList_append]
  exact congrArg ('r' :: ·) Nat.toList_repr

/-- The operand of a lexeme. -/
def Lexeme.operand (l : Lexeme) : Except InstructionError Operand :=
  if l.terminal = .register then Operand.ofRegister l.text else Operand.ofImmediate l.text

section

variable {l : Lexeme}

theorem number_of_register (terminal : l.terminal = .register) {k : Nat}
    (text : l.text = "r" ++ toString k) : l.number = k := by
  rw [Lexeme.number, if_pos terminal, text, toList_registerName, List.drop_one, List.tail_cons,
    Nat.ofDigitChars_ten_toDigits]

theorem number_of_integer (terminal : l.terminal = .integer) :
    l.number = Nat.ofDigitChars 10 l.text.toList 0 := by
  rw [Lexeme.number, if_neg (by simp [terminal]), List.drop_zero]

/-- A register is in range. -/
theorem operand_of_register (spelled : l.Spelled) (terminal : l.terminal = .register) :
    ∃ h : l.number < registerCount, l.operand = .ok (.register ⟨l.number, h⟩) := by
  rw [Lexeme.Spelled, terminal] at spelled
  obtain ⟨k, hk, htext⟩ := List.mem_map.mp spelled
  have hnumber := number_of_register terminal htext.symm
  have hdecimal : Text.plusDecimal? (Nat.toDigits 10 k) = some l.number := by
    rw [Text.plusDecimal?_toDigits, hnumber]
  have hlt : l.number < registerCount := by
    rw [hnumber]
    exact List.mem_range.mp hk
  refine ⟨hlt, ?_⟩
  rw [Lexeme.operand, if_pos terminal, Operand.ofRegister, ← htext, toList_registerName]
  simp only [hdecimal, hlt, dite_true]

/-- An integer is read whatever its size, and then it is compared. -/
theorem operand_of_integer (spelled : l.Spelled) (terminal : l.terminal = .integer) :
    l.operand = if h : l.number < Nat.pow 2 immediateBits then .ok (.immediate ⟨l.number, h⟩)
      else .error (.immediateOutOfRange l.text) := by
  rw [Lexeme.Spelled, terminal] at spelled
  obtain ⟨nonempty, digits⟩ := spelled
  have hdecimal : Text.plusDecimal? l.text.toList = some l.number := by
    rw [number_of_integer terminal]
    exact Text.plusDecimal?_of_digits nonempty digits
  rw [Lexeme.operand, if_neg (by simp [terminal]), Operand.ofImmediate, hdecimal]

theorem isOperand_iff {t : Terminal} :
    t.isOperand = true ↔ t = .register ∨ t = .integer := by
  simp [Terminal.isOperand]

/-- **The operand that is read is the one that is written.** -/
theorem operand_eq_ok_iff (spelled : l.Spelled) (operand : l.terminal.isOperand = true)
    {a : Operand} : l.operand = .ok a ↔ a.WrittenAs l := by
  rcases isOperand_iff.mp operand with terminal | terminal
  · obtain ⟨hlt, hoperand⟩ := operand_of_register spelled terminal
    rw [hoperand]
    constructor
    · intro h
      cases h
      exact .register terminal rfl
    · intro h
      cases h with
      | @register index _ _ number => exact congrArg (Except.ok ∘ Operand.register) (Fin.ext number)
      | immediate terminal' number => exact absurd (terminal.symm.trans terminal') nofun
  · rw [operand_of_integer spelled terminal]
    constructor
    · intro h
      split_ifs at h with hlt
      cases h
      exact .immediate terminal rfl
    · intro h
      cases h with
      | register terminal' number => exact absurd (terminal.symm.trans terminal') nofun
      | @immediate value _ _ number =>
          have hlt : l.number < Nat.pow 2 immediateBits := number ▸ value.isLt
          rw [dif_pos hlt]
          exact congrArg (Except.ok ∘ Operand.immediate) (Fin.ext number)

/-- An operand is refused only for its size. -/
theorem operand_eq_error (spelled : l.Spelled) (operand : l.terminal.isOperand = true)
    {e : InstructionError} (h : l.operand = .error e) :
    l.IsLarge ∧ e = .immediateOutOfRange l.text := by
  rcases isOperand_iff.mp operand with terminal | terminal
  · obtain ⟨hlt, hoperand⟩ := operand_of_register spelled terminal
    rw [hoperand] at h
    cases h
  · rw [operand_of_integer spelled terminal] at h
    split_ifs at h with hlt
    cases h
    exact ⟨⟨terminal, Nat.le_of_not_lt hlt⟩, rfl⟩

theorem Operand.WrittenAs.not_isLarge {a : Operand} (h : a.WrittenAs l) : ¬ l.IsLarge := by
  rintro ⟨terminal, large⟩
  cases h with
  | register terminal' number => exact absurd (terminal.symm.trans terminal') nofun
  | @immediate value _ _ number =>
      have := value.isLt
      omega

end

/-! ## Lists of operands -/

section

variable {α β ε : Type} {f : α → Except ε β}

/-- A traversal succeeds with what each element is related to. -/
theorem mapM_eq_ok_iff_forall₂ {R : β → α → Prop} {xs : List α}
    (hf : ∀ x ∈ xs, ∀ y, f x = .ok y ↔ R y x) {ys : List β} :
    xs.mapM f = .ok ys ↔ List.Forall₂ R ys xs := by
  induction xs generalizing ys with
  | nil =>
      constructor
      · intro h
        cases h
        exact .nil
      · intro h
        cases h
        rfl
  | cons x xs ih =>
      obtain ⟨hx, hxs⟩ := List.forall_mem_cons.mp hf
      rw [List.mapM_cons, except_bind_eq_ok_iff]
      constructor
      · rintro ⟨y, hy, h⟩
        obtain ⟨rest, hrest, h⟩ := except_bind_eq_ok_iff.mp h
        cases h
        exact .cons ((hx y).mp hy) ((ih hxs).mp hrest)
      · intro h
        cases h with
        | cons hy hrest =>
            exact ⟨_, (hx _).mpr hy, except_bind_eq_ok_iff.mpr ⟨_, (ih hxs).mpr hrest, rfl⟩⟩

theorem exists_of_mapM_eq_error {xs : List α} {e : ε} (h : xs.mapM f = .error e) :
    ∃ x ∈ xs, f x = .error e := by
  induction xs with
  | nil => cases h
  | cons x xs ih =>
      rw [List.mapM_cons] at h
      cases hx : f x with
      | error e' =>
          rw [hx] at h
          cases h
          exact ⟨x, List.mem_cons_self, hx⟩
      | ok y =>
          rw [hx] at h
          cases hrest : xs.mapM f with
          | error e' =>
              rw [hrest] at h
              cases h
              obtain ⟨x', hx', h'⟩ := ih hrest
              exact ⟨x', List.mem_cons_of_mem x hx', h'⟩
          | ok rest =>
              rw [hrest] at h
              cases h

end

/-! ## Instructions -/

/-- The texts of a form are read as a name and operands, whatever the form. -/
theorem readOperands_eq {f : Form} (hf : f ∈ Form.all) {lexemes : List Lexeme}
    (terminals : lexemes.map Lexeme.terminal = f.terminals) :
    ∃ first rest, lexemes = first :: rest ∧ first.terminal = .operation ∧
      readOperands f.shape (lexemes.map Lexeme.text) =
        ((lexemes.filter (·.terminal.isOperand)).mapM Lexeme.operand >>= fun operands =>
          .ok (first.text, operands)) := by
  simp only [Form.all, List.mem_cons, List.not_mem_nil, or_false] at hf
  -- form by form, with a lexeme for each terminal
  rcases hf with rfl | rfl | rfl | rfl <;>
    simp only [List.map_eq_cons_iff, List.map_eq_nil_iff] at terminals
  · obtain ⟨l, _, rfl, hl, rfl⟩ := terminals
    refine ⟨l, _, rfl, hl, ?_⟩
    simp [readOperands, Terminal.isOperand, hl]
  · obtain ⟨l, _, rfl, hl, a, _, rfl, ha, rfl⟩ := terminals
    refine ⟨l, _, rfl, hl, ?_⟩
    simp [readOperands, Terminal.isOperand, Lexeme.operand, hl, ha]
    rfl
  · obtain ⟨l, _, rfl, hl, a, _, rfl, ha, c, _, rfl, hc, n, _, rfl, hn, rfl⟩ := terminals
    refine ⟨l, _, rfl, hl, ?_⟩
    simp [readOperands, Terminal.isOperand, Lexeme.operand, hl, ha, hc, hn]
    rfl
  · obtain ⟨l, _, rfl, hl, a, _, rfl, ha, c, _, rfl, hc, b, _, rfl, hb, d, _, rfl, hd, e, _, rfl, he,
      rfl⟩ := terminals
    refine ⟨l, _, rfl, hl, ?_⟩
    simp [readOperands, Terminal.isOperand, Lexeme.operand, hl, ha, hc, hb, hd, he]
    rfl

theorem Operation.named?_eq_some_iff {text : String} {o : Operation} :
    named? text = some o ↔ o ∈ all ∧ o.name = upperCase text := by
  have found : ∀ {text : String}, named? text = some o → o.name = upperCase text := by
    intro text h
    have hfound := List.find?_some (by rwa [named?] at h)
    exact of_decide_eq_true hfound
  constructor
  · intro h
    exact ⟨List.mem_of_find?_eq_some h, found h⟩
  · rintro ⟨ho, hname⟩
    have hsame : upperCase text = upperCase o.name :=
      hname.symm.trans (found (named?_name o ho))
    rw [named?, hsame]
    exact named?_name o ho

section

variable {f : Form} {lexemes : List Lexeme}

/-- The operands of the lexemes, once they are known to be spelled. -/
theorem mapM_operand_eq_ok_iff (spelled : ∀ l ∈ lexemes, l.Spelled) {operands : List Operand} :
    (lexemes.filter (·.terminal.isOperand)).mapM Lexeme.operand = .ok operands ↔
      List.Forall₂ Operand.WrittenAs operands (lexemes.filter (·.terminal.isOperand)) := by
  refine mapM_eq_ok_iff_forall₂ fun l hl a => ?_
  obtain ⟨hmem, hoperand⟩ := List.mem_filter.mp hl
  exact operand_eq_ok_iff (spelled l hmem) hoperand

/-- **The instruction that is read is the one that is written.** -/
theorem ofShape_eq_ok_iff (hf : f ∈ Form.all) (spelled : ∀ l ∈ lexemes, l.Spelled)
    (terminals : lexemes.map Lexeme.terminal = f.terminals) {i : Instruction} :
    Instruction.ofShape f.shape (lexemes.map Lexeme.text) = .ok i ↔ i.WrittenAs f lexemes := by
  obtain ⟨first, rest, hlexemes, hfirst, hread⟩ := readOperands_eq hf terminals
  rw [Instruction.ofShape, hread, except_bind_eq_ok_iff]
  constructor
  · rintro ⟨⟨name, operands⟩, hbind, h⟩
    obtain ⟨operands', hoperands, heq⟩ := except_bind_eq_ok_iff.mp hbind
    cases heq
    cases hnamed : Operation.named? first.text with
    | none =>
        simp only [hnamed] at h
        cases h
    | some o =>
        simp only [hnamed] at h
        cases h
        obtain ⟨listed, hname⟩ := Operation.named?_eq_some_iff.mp hnamed
        refine ⟨listed, ?_, rfl, (mapM_operand_eq_ok_iff spelled).mp hoperands⟩
        rw [hlexemes, hname]
        rfl
  · rintro ⟨listed, hname, hshape, hoperands⟩
    rw [hlexemes] at hname
    have hnamed : Operation.named? first.text = some i.operation :=
      Operation.named?_eq_some_iff.mpr ⟨listed, (Option.some.inj hname).symm⟩
    refine ⟨(first.text, i.operands), except_bind_eq_ok_iff.mpr ⟨i.operands,
      (mapM_operand_eq_ok_iff spelled).mpr hoperands, rfl⟩, ?_⟩
    simp only [hnamed]
    rw [← hshape]
    rfl

/-- An instruction is refused only for a number that is too large. -/
theorem exists_isLarge_of_ofShape (hf : f ∈ Form.all) (spelled : ∀ l ∈ lexemes, l.Spelled)
    (terminals : lexemes.map Lexeme.terminal = f.terminals) {e : InstructionError}
    (h : Instruction.ofShape f.shape (lexemes.map Lexeme.text) = .error e) :
    ∃ l ∈ lexemes, l.IsLarge ∧ e = .immediateOutOfRange l.text := by
  obtain ⟨first, rest, hlexemes, hfirst, hread⟩ := readOperands_eq hf terminals
  rw [Instruction.ofShape, hread] at h
  cases hoperands : (lexemes.filter (·.terminal.isOperand)).mapM Lexeme.operand with
  | error e' =>
      rw [hoperands] at h
      cases h
      obtain ⟨l, hl, herror⟩ := exists_of_mapM_eq_error hoperands
      obtain ⟨hmem, hoperand⟩ := List.mem_filter.mp hl
      exact ⟨l, hmem, operand_eq_error (spelled l hmem) hoperand herror⟩
  | ok operands =>
      -- the first lexeme names an operation
      have hspelled := spelled first (hlexemes ▸ List.mem_cons_self)
      rw [Lexeme.Spelled, hfirst] at hspelled
      obtain ⟨o, ho, hname⟩ := hspelled
      have hnamed := Operation.named?_eq_some_iff.mpr ⟨ho, hname⟩
      rw [hoperands] at h
      simp only [bind, Except.bind, hnamed] at h
      cases h

/-- A written instruction has no number that is too large. -/
theorem Instruction.WrittenAs.not_isLarge {i : Instruction} (h : i.WrittenAs f lexemes) :
    ∀ l ∈ lexemes, ¬ l.IsLarge := by
  rintro l hl large
  have hoperand : l ∈ lexemes.filter (·.terminal.isOperand) :=
    List.mem_filter.mpr ⟨hl, isOperand_iff.mpr (Or.inr large.1)⟩
  obtain ⟨k, hk, rfl⟩ := List.mem_iff_getElem.mp hoperand
  have hlength := h.operands.length_eq
  have hwritten := h.operands.get (by omega : k < i.operands.length) hk
  exact hwritten.not_isLarge large

/-- No form has two integers. -/
theorem eq_of_isLarge (hf : f ∈ Form.all) (terminals : lexemes.map Lexeme.terminal = f.terminals)
    {l l' : Lexeme} (hl : l ∈ lexemes) (hl' : l' ∈ lexemes) (large : l.IsLarge)
    (large' : l'.IsLarge) : l = l' := by
  have hforms : ∀ f ∈ Form.all, (f.terminals.filter (· = .integer)).length ≤ 1 := by decide
  have hone := hforms f hf
  rw [← terminals, List.filter_map, List.length_map] at hone
  have integers : ∀ {l : Lexeme}, l ∈ lexemes → l.IsLarge →
      l ∈ lexemes.filter ((fun t => decide (t = .integer)) ∘ Lexeme.terminal) := by
    intro l hl large
    exact List.mem_filter.mpr ⟨hl, decide_eq_true large.1⟩
  obtain ⟨k, hk, rfl⟩ := List.mem_iff_getElem.mp (integers hl large)
  obtain ⟨k', hk', rfl⟩ := List.mem_iff_getElem.mp (integers hl' large')
  obtain rfl : k = k' := by omega
  rfl

end

end ShiftReduce.Assembly
