import ShiftReduce.Assembly.CommandLine
import ShiftReduce.Proofs.Assembly.Decision
import ShiftReduce.Proofs.Assembly.Margins
import ShiftReduce.Proofs.Assembly.Partition

/-!
# Where a character is reported

A report that ends at a character that begins no piece tells the line by its number and the character by its
column. The number is that of the line in the file. The column is not that of the line: it counts the bytes
of the code, so the character stands further to the right in the line, by the bytes of the left margin
(`standsAt_of_refused`). Only where the code begins with the line is the column the one in which the
character is found; `column_of_indented` is the shortest line with another one.
-/

namespace ShiftReduce.Assembly

/-! ## Texts at places -/

/-- The text stands in the line, from a byte on. -/
def StandsAt (line : String) (byte : Nat) (text : String) : Prop :=
  ∃ before after, line.toList = before ++ text.toList ++ after ∧ byteSize before = byte

/-- What stands in the code of a line stands in the line, behind the left margin. -/
theorem SourceLine.standsAt_text {l : SourceLine} {byte : Nat} {text : String}
    (h : StandsAt l.code byte text) : StandsAt l.text (byteSize l.leftMargin + byte) text := by
  obtain ⟨before, after, hcode, hbyte⟩ := h
  refine ⟨l.leftMargin ++ before, after ++ (l.rightMargin ++ l.comment), ?_, ?_⟩
  · rw [l.text_eq, hcode]
    simp only [List.append_assoc]
  · rw [byteSize_append, hbyte]

/-- An error stands where its column says. -/
theorem standsAt_of_mem_lex {line : String} {e : LexError} (h : .error e ∈ lex line) :
    1 ≤ e.column ∧ StandsAt line (e.column - 1) e.text := by
  obtain ⟨before, c, after, hline, -, rfl⟩ := exists_stray_of_mem_scan h
  refine ⟨Nat.le_add_left 1 _, before, after, ?_, ?_⟩
  · rw [hline, String.toList_ofList, List.append_assoc, List.singleton_append]
  · simp only [Nat.zero_add, Nat.add_sub_cancel]

theorem error_mem_lex_of_parseLine {line : String} {e : LexError}
    (h : parseLine line = .error (.lex e)) : .error e ∈ lex line := by
  have hparsed := parsed_parseLine line
  rw [h] at hparsed
  cases hparsed with
  | lex longest =>
      rw [longest.split]
      exact List.mem_append_right _ List.mem_cons_self

/-! ## Lines of a report -/

/-- The line is one of a file, as it is read and under its number. -/
structure SourceLine.IsOf (l : SourceLine) (file : String) (bytes : List UInt8) : Prop where
  file : l.file = file
  first : 1 ≤ l.number
  read : ∃ line, (cutLines bytes)[l.number - 1]? = some line ∧ decodeLine line = .ok l.text

theorem isOf_of_mem_sourceLines {file : String} {bytes : List UInt8} {l : SourceLine}
    (h : .ok l ∈ sourceLines file bytes) : l.IsOf file bytes := by
  obtain ⟨i, hi, hline⟩ := List.mem_mapIdx.mp h
  cases hdecode : decodeLine (cutLines bytes)[i] with
  | error e =>
      rw [hdecode] at hline
      cases hline
  | ok text =>
      rw [hdecode] at hline
      cases hline
      exact ⟨rfl, Nat.le_add_left 1 i, _, List.getElem?_eq_getElem hi, hdecode⟩

theorem Report.failure?_andThen {r : Report} {rest : Unit → Report} {f : Failure}
    (h : (r.andThen rest).failure? = some f) :
    r.failure? = some f ∨ (rest ()).failure? = some f := by
  rw [andThen] at h
  cases hr : r.failure? with
  | none =>
      rw [hr] at h
      exact Or.inr h
  | some f' =>
      rw [hr] at h
      exact Or.inl h

theorem SourceLine.eq_of_report_refused {l l' : SourceLine} {e : LineError}
    (h : l'.report.failure? = some (.refused l e)) : l' = l ∧ parseLine l.code = .error e := by
  rw [report] at h
  cases hparse : parseLine l'.code with
  | error e' =>
      rw [hparse] at h
      cases h
      exact ⟨rfl, hparse⟩
  | ok t =>
      rw [hparse] at h
      cases hread : Instruction.ofTree t with
      | error e' =>
          simp only [hread] at h
          cases h
      | ok i =>
          simp only [hread] at h
          cases h

/-- The line at which a report ends is one of those reported on, and its code is refused. -/
theorem mem_of_reportLines_refused {file : String} {lines : List (Except ReadError SourceLine)}
    {l : SourceLine} {e : LineError} (h : (reportLines file lines).failure? = some (.refused l e)) :
    .ok l ∈ lines ∧ parseLine l.code = .error e := by
  induction lines with
  | nil => cases h
  | cons line lines ih =>
      cases line with
      | error e' => cases h
      | ok l' =>
          rw [reportLines] at h
          rcases Report.failure?_andThen h with hhere | hlater
          · obtain ⟨rfl, hparse⟩ := SourceLine.eq_of_report_refused hhere
            exact ⟨List.mem_cons_self, hparse⟩
          · obtain ⟨hmem, hparse⟩ := ih hlater
            exact ⟨List.mem_cons_of_mem _ hmem, hparse⟩

/-- The line at which the assembler stops is one of the file, and its code is refused. -/
theorem isOf_of_refused {request : Request} {path : String} {bytes : List UInt8} {l : SourceLine}
    {e : LineError}
    (h : (request.report path (.contents bytes)).failure? = some (.refused l e)) :
    l.IsOf path bytes ∧ parseLine l.code = .error e := by
  rcases Report.failure?_andThen h with hdumps | hfile
  · cases hdumps
  · obtain ⟨hmem, hparse⟩ := mem_of_reportLines_refused hfile
    exact ⟨isOf_of_mem_sourceLines (List.mem_of_mem_filter hmem), hparse⟩

/-! ## Columns -/

/-- **Columns count from the code.** Where the assembler stops at a character that begins no piece, it tells
the number of a line of the file, and the character stands in this line as many bytes behind the left
margin as the column says. So it stands in this column if there is no left margin. -/
theorem standsAt_of_refused {request : Request} {path : String} {bytes : List UInt8} {l : SourceLine}
    {e : LexError}
    (h : (request.report path (.contents bytes)).failure? = some (.refused l (.lex e))) :
    l.IsOf path bytes ∧ 1 ≤ e.column ∧
      StandsAt l.text (byteSize l.leftMargin + (e.column - 1)) e.text ∧
      (l.leftMargin = [] → StandsAt l.text (e.column - 1) e.text) := by
  obtain ⟨hline, hparse⟩ := isOf_of_refused h
  obtain ⟨hcolumn, hcode⟩ := standsAt_of_mem_lex (error_mem_lex_of_parseLine hparse)
  have htext := SourceLine.standsAt_text hcode
  refine ⟨hline, hcolumn, htext, fun hmargin => ?_⟩
  rw [hmargin, byteSize, List.foldr_nil, Nat.zero_add] at htext
  exact htext

/-- In the second line of a file, behind a tab and a no-break space, the character in column 9 of the code
is the one behind 11 bytes. -/
theorem standsAt_of_refused_second :
    let bytes := "CAP\n\t\u00a0ADD r1, $4 ; sum\n".toUTF8.data.toList
    let l : SourceLine := ⟨"\t\u00a0ADD r1, $4 ; sum", "a.s", 2⟩
    (({} : Request).report "a.s" (.contents bytes)).failure? = some (.refused l (.lex ⟨"$", 9⟩)) ∧
      l.IsOf "a.s" bytes ∧ StandsAt l.text 11 "$" := by
  intro bytes l
  have hrefused : (({} : Request).report "a.s" (.contents bytes)).failure? =
      some (.refused l (.lex ⟨"$", 9⟩)) := by
    decide +kernel
  obtain ⟨hline, -, hstands, -⟩ := standsAt_of_refused hrefused
  have hplace : byteSize l.leftMargin + (9 - 1) = 11 := by decide +kernel
  rw [hplace] at hstands
  exact ⟨hrefused, hline, hstands⟩

/-- **A column that is not that of the line.** In a line of a space and a `$` the assembler stops at the `$`
and reports column 1, where the space is. -/
theorem column_of_indented :
    let bytes := " $\n".toUTF8.data.toList
    let l : SourceLine := ⟨" $", "prog.s", 1⟩
    let e : LexError := ⟨"$", 1⟩
    (({} : Request).report "prog.s" (.contents bytes)).failure? = some (.refused l (.lex e)) ∧
      l.IsOf "prog.s" bytes ∧ ¬ StandsAt l.text (e.column - 1) e.text := by
  intro bytes l e
  have hrefused : (({} : Request).report "prog.s" (.contents bytes)).failure? =
      some (.refused l (.lex e)) := by
    decide +kernel
  refine ⟨hrefused, (isOf_of_refused hrefused).1, ?_⟩
  rintro ⟨before, after, htext, hbyte⟩
  rcases before with _ | ⟨c, before⟩
  · have hline : l.text.toList = [' ', '$'] := by decide +kernel
    have hchar : e.text.toList = ['$'] := by decide +kernel
    rw [List.nil_append, hline, hchar, List.singleton_append] at htext
    exact absurd (List.cons.inj htext).1 (by decide)
  · have hpos := byteSize_pos (List.cons_ne_nil c before)
    rw [hbyte] at hpos
    exact Nat.lt_irrefl 0 hpos

end ShiftReduce.Assembly
