/-
**One expression a line.**

Without arguments, the command that lists references takes its expressions from the lines of the
input. How the lines are laid out makes no difference: blanks around an expression, a carriage
return before a line feed among them, blank lines anywhere, and a line feed at the end or none. The
expressions are counted without the blank lines, and an error is found at the byte where it is in
the expression, not in its line.

* `Text.Lists`: the layouts of a list of expressions, one a line.
* `Text.entries_of_lists`: whatever the layout, the entries of the text are the expressions.
* `Command.refs_listed`: the command answers the input as it answers the expressions.
-/

import Formula.Command.Response
import Formula.Proofs.Number
import Formula.Proofs.Refs

namespace Formula

namespace Text

/-! ### Layouts -/

/-- Holds of a run of blanks in a line. -/
def Blanks (run : List Char) : Prop :=
  ∀ character ∈ run, isBlank character = true ∧ character ≠ '\n'

instance (run : List Char) : Decidable (Blanks run) :=
  List.decidableBAll _ run

/-- Holds of a text that can stand in a line and neither begins nor ends with a blank. -/
structure IsEntry (text : String) : Prop where
  nonempty : text.toList ≠ []
  inLine : '\n' ∉ text.toList
  begins : ∀ first ∈ text.toList.head?, isBlank first = false
  ends : ∀ last ∈ text.toList.getLast?, isBlank last = false

instance (text : String) : Decidable (IsEntry text) :=
  decidable_of_iff (text.toList ≠ [] ∧ '\n' ∉ text.toList ∧
      text.toList.head?.all (!isBlank ·) ∧ text.toList.getLast?.all (!isBlank ·)) <| by
    simp only [Option.all_eq_true, Bool.not_eq_true']
    exact ⟨fun ⟨nonempty, inLine, begins, ends⟩ => ⟨nonempty, inLine, begins, ends⟩,
      fun entry => ⟨entry.nonempty, entry.inLine, entry.begins, entry.ends⟩⟩

/-- Holds of a line and what it lists: nothing if it is blank, or the text between the blanks. -/
inductive ListsInLine : List Char → List String → Prop
  | blank {line : List Char} : Blanks line → ListsInLine line []
  | entry {before after : List Char} {text : String} :
      Blanks before → IsEntry text → Blanks after →
        ListsInLine (before ++ (text.toList ++ after)) [text]

/-- Holds of a text and what its lines list. The last line has no line feed; it may be empty. -/
inductive Lists : List Char → List String → Prop
  | last {line : List Char} {texts : List String} : ListsInLine line texts → Lists line texts
  | line {line rest : List Char} {texts others : List String} :
      ListsInLine line texts → Lists rest others → Lists (line ++ '\n' :: rest) (texts ++ others)

/-! ### Entries -/

theorem trimmed_blanks {run : List Char} (blanks : Blanks run) : trimmed run = [] := by
  have dropped : (run ++ []).dropWhile isBlank = [] :=
    (takeWhile_run (fun character inside => (blanks character inside).1) (by simp)).2
  rw [List.append_nil] at dropped
  rw [trimmed, dropped]
  rfl

theorem trimmed_entry {before after : List Char} {text : String} (leading : Blanks before)
    (entry : IsEntry text) (trailing : Blanks after) :
    trimmed (before ++ (text.toList ++ after)) = text.toList := by
  have front : (before ++ (text.toList ++ after)).dropWhile isBlank = text.toList ++ after := by
    refine (takeWhile_run (fun character inside => (leading character inside).1) ?_).2
    obtain ⟨first, rest, same⟩ := List.exists_cons_of_ne_nil entry.nonempty
    have begins := entry.begins
    rw [same] at begins ⊢
    exact begins
  have back : (after.reverse ++ text.toList.reverse).dropWhile isBlank = text.toList.reverse := by
    refine (takeWhile_run (fun character inside => ?_) ?_).2
    · exact (trailing character (List.mem_reverse.mp inside)).1
    · rw [List.head?_reverse]
      exact entry.ends
  rw [trimmed, front, List.reverse_append, back, List.reverse_reverse]

/-- The entries among lines. -/
def entriesOf (lines : List (List Char)) : List String :=
  ((lines.map trimmed).filter fun line => !line.isEmpty).map String.ofList

theorem entriesOf_cons (line : List Char) (rest : List (List Char)) :
    entriesOf (line :: rest) = entriesOf [line] ++ entriesOf rest := by
  rw [← List.singleton_append, entriesOf, entriesOf, entriesOf, List.map_append,
    List.filter_append, List.map_append]

namespace ListsInLine

variable {line : List Char} {texts : List String}

theorem entriesOf_eq (listed : ListsInLine line texts) : entriesOf [line] = texts := by
  cases listed with
  | blank blanks =>
    rw [entriesOf, List.map_singleton, trimmed_blanks blanks]
    rfl
  | @entry before after text leading entry trailing =>
    have kept : [text.toList].filter (fun line => !line.isEmpty) = [text.toList] :=
      List.filter_eq_self.mpr (by simpa using entry.nonempty)
    rw [entriesOf, List.map_singleton, trimmed_entry leading entry trailing, kept,
      List.map_singleton, String.ofList_toList]

theorem inLine (listed : ListsInLine line texts) : '\n' ∉ line := by
  cases listed with
  | blank blanks => exact fun inside => (blanks _ inside).2 rfl
  | entry leading entry trailing =>
    simp only [List.mem_append, not_or]
    exact ⟨fun inside => (leading _ inside).2 rfl, entry.inLine,
      fun inside => (trailing _ inside).2 rfl⟩

end ListsInLine

theorem entriesOf_of_lists {text : List Char} {texts : List String} (listed : Lists text texts) :
    entriesOf (lines text) = texts := by
  induction listed with
  | last listed => rw [lines, List.splitOn_eq_singleton listed.inLine, listed.entriesOf_eq]
  | line listed more step =>
    rw [lines, List.splitOn_append_cons_self_of_not_mem listed.inLine, entriesOf_cons,
      listed.entriesOf_eq]
    exact congrArg _ step

/-- The entries of a text are what its lines list. -/
theorem entries_of_lists {text : String} {texts : List String}
    (listed : Lists text.toList texts) : entries text = texts :=
  entriesOf_of_lists listed

end Text

/-! ### The command -/

namespace Command

open Text (Lists ListsInLine)

theorem values?_escape (expressions : List String) :
    values? ("--" :: expressions) = some expressions := by
  rw [values?]
  rfl

theorem respond_refs (expressions : List String) (input : Option String) :
    respond ("refs" :: "--" :: expressions) input =
      .ofResult ((Invocation.refs expressions).result input) := by
  rw [respond, Invocation.ofArguments?, values?_escape]
  rfl

theorem respond_input (input : Option String) :
    respond ["refs"] input = .ofResult ((Invocation.refs []).result input) := rfl

/-- The report of given expressions, whatever the input. -/
theorem result_refs {expressions : List String} (some_expression : expressions ≠ [])
    (input : Option String) :
    (Invocation.refs expressions).result input = (refs expressions {}).map Usage.report := by
  obtain ⟨first, rest, rfl⟩ := List.exists_cons_of_ne_nil some_expression
  rw [Invocation.result]
  · cases refs (first :: rest) {} <;> rfl
  · exact fun none_given => absurd none_given some_expression

/-- The report of the entries of the input. -/
theorem result_input (text : String) :
    (Invocation.refs []).result (some text) = (refs (Text.entries text) {}).map Usage.report := by
  rw [Invocation.result]
  show (refs (Text.entries text) {} >>= fun usage => pure usage.report) = _
  cases refs (Text.entries text) {} <;> rfl

/-- If given expressions have no report, one of them is the first that has no tree. -/
theorem result_refs_error {expressions : List String} (some_expression : expressions ≠ [])
    {input : Option String} {failure : Failure}
    (failed : (Invocation.refs expressions).result input = .error failure) :
    ∃ index error, FirstRejected expressions {} index error ∧ failure = .refusedAt index error := by
  refine (refs_eq_error_iff some_expression).mp ?_
  rw [result_refs some_expression] at failed
  cases gathers : refs expressions {} with
  | ok usage =>
    rw [gathers] at failed
    cases failed
  | error other =>
    rw [gathers] at failed
    cases failed
    rfl

/-- **One expression a line.** If a text lists expressions, the command that lists references
answers it as it answers the expressions: with the same report, or else with nothing but the message
about the first expression without a tree, which tells its index among the expressions and the error
that it has alone. A text that lists none is no input. -/
theorem refs_listed {text : String} {expressions : List String}
    (listed : Lists text.toList expressions) :
    (expressions ≠ [] → ∀ input,
      (Invocation.refs []).result (some text) = (Invocation.refs expressions).result input ∧
      respond ["refs"] (some text) = respond ("refs" :: "--" :: expressions) input ∧
      ∀ failure, (Invocation.refs []).result (some text) = .error failure →
        respond ["refs"] (some text) = ⟨1, "", failure.message ++ "\n"⟩ ∧
        ∃ index error, FirstRejected expressions {} index error ∧
          failure = .refusedAt index error) ∧
    (expressions = [] →
      (Invocation.refs []).result (some text) = .error .noInput ∧
      respond ["refs"] (some text) = ⟨1, "", Failure.noInput.message ++ "\n"⟩) := by
  have entries := Text.entries_of_lists listed
  refine ⟨fun some_expression input => ?_, ?_⟩
  · have same : (Invocation.refs []).result (some text) =
        (Invocation.refs expressions).result input := by
      rw [result_input, result_refs some_expression, entries]
    refine ⟨same, by rw [respond_input, respond_refs, same], fun failure failed => ⟨?_, ?_⟩⟩
    · rw [respond_input, failed]
      rfl
    · exact result_refs_error some_expression (same.symm.trans failed)
  · rintro rfl
    have failed : (Invocation.refs []).result (some text) = .error .noInput := by
      rw [result_input, entries]
      rfl
    exact ⟨failed, by rw [respond_input, failed]; rfl⟩

/-- Blank lines, a carriage return and blanks of more than one byte around the expressions, of which
the second is rejected where its own text ends. -/
theorem refs_listed_second_rejected :
    let text := "\n a \r\n\t\n\u3000b +\u00a0\n("
    Lists text.toList ["a", "b +", "("] ∧
      respond ["refs"] (some text) = respond ["refs", "--", "a", "b +", "("] none ∧
      respond ["refs"] (some text) =
        ⟨1, "", "Compile error in expression 2: " ++
          (Error.refused ⟨.unexpectedEnd .expression, 3⟩).message ++ "\n"⟩ := by
  intro text
  have first : ListsInLine [' ', 'a', ' ', '\r'] ["a"] :=
    @ListsInLine.entry [' '] [' ', '\r'] "a" (by decide) (by decide) (by decide)
  have second : ListsInLine ['\u3000', 'b', ' ', '+', '\u00a0'] ["b +"] :=
    @ListsInLine.entry ['\u3000'] ['\u00a0'] "b +" (by decide) (by decide) (by decide)
  have third : ListsInLine ['('] ["("] :=
    @ListsInLine.entry [] [] "(" (by decide) (by decide) (by decide)
  have lines := Lists.line (.blank (List.forall_mem_nil _)) <| .line first <|
    .line (@ListsInLine.blank ['\t'] (by decide)) <| .line second <| .last third
  have listed : Lists text.toList ["a", "b +", "("] := by simpa [text] using lines
  have same := ((refs_listed listed).1 (by simp) none).2.1
  exact ⟨listed, same, same.trans (by decide +kernel)⟩

end Command

end Formula
