/-!
# Push-back streams

A stream in front of a source, which can be looked into without taking anything out, and into which
items can be put back. What was put back last comes out first, before anything else of the source.
A source need not be at its end when it has nothing to give: a later call may bring more.
-/

namespace ShiftReduce

/-- Something that answers each call with an item or with nothing. -/
class Source (σ : Type) (α : outParam Type) where
  pull : σ → Option α × σ

/-- A list gives its items, and then nothing for ever. -/
instance {α : Type} : Source (List α) α where
  pull
    | [] => (none, [])
    | a :: rest => (some a, rest)

/-- A source given by its answers, call by call; after these it answers nothing for ever. -/
structure Answers (α : Type) where
  calls : List (Option α)

instance {α : Type} : Source (Answers α) α where
  pull
    | ⟨[]⟩ => (none, ⟨[]⟩)
    | ⟨a :: rest⟩ => (a, ⟨rest⟩)

/-- A source behind a stack of items that come first. -/
structure PushBack (σ α : Type) where
  source : σ
  /-- The items that come before the source's, the next one first. -/
  pending : List α := []

namespace PushBack

variable {σ α : Type} [Source σ α]

/-- The next item, which stays in the stream. -/
def peek (s : PushBack σ α) : Option α × PushBack σ α :=
  match s.pending with
  | a :: _ => (some a, s)
  | [] =>
    match Source.pull s.source with
    | (some a, source) => (some a, ⟨source, [a]⟩)
    | (none, source) => (none, ⟨source, []⟩)

/-- Take the next item out. -/
def next (s : PushBack σ α) : Option α × PushBack σ α :=
  match s.pending with
  | a :: rest => (some a, { s with pending := rest })
  | [] =>
    let (item, source) := Source.pull s.source
    (item, ⟨source, []⟩)

omit [Source σ α] in
/-- Put an item before all others. -/
def pushBack (s : PushBack σ α) (a : α) : PushBack σ α := { s with pending := a :: s.pending }

end PushBack

end ShiftReduce
