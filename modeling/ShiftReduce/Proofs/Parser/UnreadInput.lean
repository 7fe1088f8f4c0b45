import ShiftReduce.Proofs.Parser.Lookahead
import ShiftReduce.Proofs.Parser.Soundness

/-!
# What a parse does before a failure

A parser that comes to a failure of its source stops there, and until then it has only trees in view:
tokens, and what it has put back before them. Moves with a tree in view can be made before any other
rest of the input (`ParsingTable.Reaches.over_trees`), and where one of them is the last, the parser
stops for a reason of its own that the rest does not matter for (`Config.stop_of_tree`).

So an input with a failure in it is never a sentence for the parser. It reports this failure, or an
error that it reports in every input with the same beginning (`ParsingTable.error_of_failure_ahead`).
-/

namespace ShiftReduce

variable {S R E : Type} [DecidableEq S]

/-! ## Stopping at a tree -/

/-- With a tree in view the parser stops only for an error of its own, whatever comes after the tree. -/
theorem Config.stop_of_tree {T : ParsingTable S R} {q : StateId} {σ : List (StateId × Tree S R)}
    {t : Tree S R} {rest : List (Input S R E)} {result : Except (ParseError S R E) (Tree S R)}
    (h : (Config.over q σ (.tree t :: rest)).step T = .stop result) :
    ∃ e : ParseError S R E, (∀ f, e ≠ .source f) ∧ result = .error e ∧
      ∀ rest', (Config.over q σ (.tree t :: rest')).step T = .stop (.error e) := by
  by_cases hrefused : T.Refuses t
  · have hblind : ∀ rest' : List (Input S R E), T.view? (.tree t :: rest') = none := by
      intro rest'
      exact if_pos hrefused
    rw [Config.step_of_view?_eq_none (hblind rest)] at h
    refine ⟨.unexpected q t.symbol (some t.text), nofun, (Move.stop.inj h).symm, ?_⟩
    intro rest'
    exact Config.step_of_view?_eq_none (hblind rest')
  · -- the table is asked for the symbol of the tree, whatever comes after
    have hact : ∀ rest' : List (Input S R E), (Config.over q σ (.tree t :: rest')).step T =
        (Config.over q σ (.tree t :: rest')).act T t.symbol (some t) := by
      intro rest'
      exact if_neg hrefused
    rw [hact] at h
    simp only [hact]
    unfold Config.act at h ⊢
    cases haction : T.action? q t.symbol with
    | none =>
        simp only [haction] at h ⊢
        exact ⟨.unexpected q t.symbol _, nofun, (Move.stop.inj h).symm, fun _ => rfl⟩
    | some action =>
        simp only [haction] at h ⊢
        cases action with
        | shift next => cases h
        | reduce rule =>
            cases hreduce : T.reduce q σ rule with
            | error fault =>
                simp only [hreduce] at h ⊢
                exact ⟨.internal q fault, nofun, (Move.stop.inj h).symm, fun _ => rfl⟩
            | ok reduced =>
                simp only [hreduce] at h
                cases h
        | accept =>
            exact ⟨.internal q .acceptedBeforeEnd, nofun, (Move.stop.inj h).symm, fun _ => rfl⟩

/-! ## Moves over trees -/

namespace ParsingTable

variable {T : ParsingTable S R}

/-- A move before a rest that shows no symbol is a move over trees, and a move before every rest. -/
theorem Moves.over_trees {q : StateId} {σ : List (StateId × Tree S R)} {ts : List (Tree S R)}
    {l : List (Input S R E)} {d : Config S R E} (blind : T.view? l = none)
    (h : T.Moves (.over q σ (ts.map .tree ++ l)) d) :
    ∃ q' σ', ∃ ts' : List (Tree S R), d = .over q' σ' (ts'.map .tree ++ l) ∧
      ∀ l' : List (Input S R E),
        T.Moves (.over q σ (ts.map .tree ++ l')) (.over q' σ' (ts'.map .tree ++ l')) := by
  rcases ts with _ | ⟨t, ts⟩
  · rw [List.map_nil, List.nil_append] at h
    cases h with
    | shift seen action =>
        rw [blind] at seen
        cases seen
    | reduce seen action rule spells =>
        rw [blind] at seen
        cases seen
  · have hview : ∀ l' : List (Input S R E),
        T.view? (.tree t :: (ts.map .tree ++ l')) = T.view? (.tree t :: (ts.map .tree ++ l)) := by
      intro l'
      exact view?_eq_of_sight rfl
    rw [List.map_cons, List.cons_append] at h
    simp only [List.map_cons, List.cons_append]
    cases h with
    | shift seen action =>
        refine ⟨_, _, ts, rfl, ?_⟩
        intro l'
        exact .shift ((hview l').trans seen) action
    | reduce seen action rule spells =>
        refine ⟨_, _, _ :: t :: ts, rfl, ?_⟩
        intro l'
        exact .reduce ((hview l').trans seen) action rule spells

/-- **Moves before a rest that shows no symbol** are moves before every rest. -/
theorem Reaches.over_trees {n : Nat} {q : StateId} {σ : List (StateId × Tree S R)}
    {ts : List (Tree S R)} {l : List (Input S R E)} {d : Config S R E} (blind : T.view? l = none)
    (h : T.Reaches n (.over q σ (ts.map .tree ++ l)) d) :
    ∃ q' σ', ∃ ts' : List (Tree S R), d = .over q' σ' (ts'.map .tree ++ l) ∧
      ∀ l' : List (Input S R E),
        T.Reaches n (.over q σ (ts.map .tree ++ l')) (.over q' σ' (ts'.map .tree ++ l')) := by
  induction n generalizing q σ ts with
  | zero =>
      cases h
      exact ⟨q, σ, ts, rfl, fun l' => .refl _⟩
  | succ n ih =>
      cases h with
      | head move rest =>
          obtain ⟨q₁, σ₁, ts₁, rfl, hmove⟩ := move.over_trees blind
          obtain ⟨q', σ', ts', hd, hrest⟩ := ih rest
          refine ⟨q', σ', ts', hd, ?_⟩
          intro l'
          exact .head (hmove l') (hrest l')

/-! ## A failure ahead -/

omit [DecidableEq S] in
/-- Tokens wait in the stream as trees. -/
theorem inputs_map_ok_append_eq_trees (w : List (Token S)) (items : List (Except E (Token S))) :
    (inputs (w.map .ok ++ items) : List (Input S R E)) =
      (w.map Tree.leaf).map Input.tree ++ inputs items := by
  rw [inputs_map_ok_append, List.map_map]
  rfl

/-- **Errors do not depend on input that has not been read.** If a parse ends on an input with a failure
in it, it reports this failure, or an error of its own that it reports in as many moves on every input
that has the same tokens before the failure. -/
theorem error_of_failure_ahead {fuel : Nat} {w : List (Token S)} {f : E}
    {rest : List (Except E (Token S))} {result : Except (ParseError S R E) (Tree S R)}
    (h : T.parse fuel (w.map .ok ++ .error f :: rest) = some result) :
    result = .error (.source f) ∨
      ∃ e : ParseError S R E, (∀ f', e ≠ .source f') ∧ result = .error e ∧
        ∀ rest', T.parse fuel (w.map .ok ++ rest') = some (.error e) := by
  rw [parse_eq_run, inputs_map_ok_append_eq_trees] at h
  obtain ⟨n, q, σ, l, hfuel, hreach, hstop⟩ := exists_reaches_of_run_eq_some h
  have hblind : T.view? (inputs (.error f :: rest) : List (Input S R E)) = none := rfl
  obtain ⟨q, σ, ts, hd, hsame⟩ := hreach.over_trees hblind
  rw [hd] at hstop
  rcases ts with _ | ⟨t, ts⟩
  · -- the failure is in view
    left
    have hfailure := Config.step_of_view?_eq_none (q := q) (σ := σ) hblind
    exact Move.stop.inj (hstop.symm.trans hfailure)
  · right
    obtain ⟨e, hown, rfl, hstops⟩ := Config.stop_of_tree hstop
    refine ⟨e, hown, rfl, ?_⟩
    intro rest'
    rw [parse_eq_run, inputs_map_ok_append_eq_trees]
    exact run_eq_some_of_reaches (hsame (inputs rest')) (hstops _) hfuel

/-- A second `b` is one too many for `S := A b`, whatever would have come after it. -/
theorem error_of_failure_ahead_emptyBeforeToken :
    let w : List (Token Char) := [⟨'b', "x"⟩, ⟨'b', "y"⟩]
    emptyBeforeToken.parse 8 (w.map .ok ++ .error "gone" :: []) =
      some (.error (.unexpected 2 'b' (some "y"))) ∧
    ∀ rest : List (Except String (Token Char)),
      emptyBeforeToken.parse 8 (w.map .ok ++ rest) =
        some (.error (.unexpected 2 'b' (some "y"))) := by
  intro w
  have hparse : emptyBeforeToken.parse 8 (w.map .ok ++ .error "gone" :: []) =
      some (.error (.unexpected 2 'b' (some "y"))) := by
    have htext : (Tree.leaf ⟨'b', "y"⟩ : Tree Char Nat).text = "y" := Tree.text_leaf _
    rw [← htext]
    rfl
  refine ⟨hparse, ?_⟩
  rcases error_of_failure_ahead hparse with hfailure | ⟨e, -, he, hsame⟩
  · cases hfailure
  · obtain rfl := Except.error.inj he
    exact hsame

end ParsingTable

end ShiftReduce
