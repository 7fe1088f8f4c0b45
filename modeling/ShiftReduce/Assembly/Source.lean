import ShiftReduce.Text.Blank

/-!
# Source lines

A source file is a sequence of bytes. A line feed ends a line, with a carriage return before it or
not, and what follows the last line feed is a line unless it is empty. Lines are numbered from 1.
Each has to be text in UTF-8; one that is not keeps its number, and the lines after it are read all
the same.

The code of a line is what stands before its comment, without the blanks around it.
-/

namespace ShiftReduce.Assembly

/-- A line of a source file. -/
structure SourceLine where
  text : String
  file : String
  number : Nat
deriving DecidableEq, Repr

namespace SourceLine

/-- The text before any comment, without the blanks around it. -/
def code (l : SourceLine) : String :=
  String.ofList (Text.trim (l.text.toList.takeWhile (· ≠ ';')))

/-- Whether the line holds nothing but blanks and a comment. -/
def isBlank (l : SourceLine) : Bool := l.code.isEmpty

/-- Where the line is found. -/
def location (l : SourceLine) : String := l.file ++ ":" ++ toString l.number

end SourceLine

/-- A line that is not text. -/
inductive ReadError where
  | notUtf8
deriving DecidableEq, Repr

def ReadError.message : ReadError → String
  | .notUtf8 => "stream did not contain valid UTF-8"

/-! ## Reading -/

/-- A line without the carriage return that belongs to its end. -/
def withoutReturn (line : List UInt8) : List UInt8 :=
  if line.getLast? = some 13 then line.dropLast else line

/-- The lines of a sequence of bytes, without their ends. -/
def cutLines (bytes : List UInt8) : List (List UInt8) :=
  match _ : bytes.dropWhile (· ≠ 10) with
  | [] => if bytes.isEmpty then [] else [bytes]
  | _ :: rest => withoutReturn (bytes.takeWhile (· ≠ 10)) :: cutLines rest
termination_by bytes.length
decreasing_by
  have shorter := (List.dropWhile_suffix (· ≠ (10 : UInt8)) (l := bytes)).length_le
  rwa [‹bytes.dropWhile _ = _›, List.length_cons] at shorter

/-- The text of a line. -/
def decodeLine (line : List UInt8) : Except ReadError String :=
  match String.fromUTF8? ⟨line.toArray⟩ with
  | some text => .ok text
  | none => .error .notUtf8

/-- The lines of a file, in their order. -/
def sourceLines (file : String) (bytes : List UInt8) : List (Except ReadError SourceLine) :=
  (cutLines bytes).mapIdx fun i line => (decodeLine line).map fun text => ⟨text, file, i + 1⟩

/-- The lines of a file that are not blank. -/
def codeLines (file : String) (bytes : List UInt8) : List (Except ReadError SourceLine) :=
  (sourceLines file bytes).filter fun
    | .ok line => !line.isBlank
    | .error _ => true

example : cutLines "a\r\n\nb\r".toUTF8.data.toList = [[97], [], [98, 13]] := by decide +kernel
example : (SourceLine.mk " é ; note" "main.s" 4).code = "é" := by decide +kernel

end ShiftReduce.Assembly
