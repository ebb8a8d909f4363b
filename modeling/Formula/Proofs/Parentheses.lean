/-
**Redundant parentheses.**

Any operand of an expression, in whatever layer, may be put in parentheses: one is put in directly
before its first token and one directly behind its last. The text then has an expression in which
the operand is a group, alone in the layers in which it stood. Every builder makes the same of both
texts, with the same hook calls in the same order.

* `Lexing.Spells.parenthesised`: the tokens of the new text.
* `Hole.spells_parenthesised`: an expression that has them.
* `compile_parenthesised`: compilations of both texts.
-/

import Formula.Proofs.Comparison
import Formula.Proofs.Expressions
import Formula.Proofs.Grammar.Hole
import Formula.Proofs.Grammar.Looser
import Formula.Proofs.Written.Between

namespace Formula

/-! ### Texts -/

/-- A text with a mark put in behind so many of its bytes. -/
def Text.insert (mark : Char) (offset : Nat) : List Char → List Char
  | [] => [mark]
  | character :: rest =>
    if offset = 0 then mark :: character :: rest
    else character :: insert mark (offset - character.utf8Size) rest

theorem Text.insert_append (mark : Char) (front rest : List Char) :
    insert mark (byteLength front) (front ++ rest) = front ++ mark :: rest := by
  induction front with
  | nil => cases rest <;> rfl
  | cons character front step =>
    have some_bytes : character.utf8Size + byteLength front ≠ 0 :=
      Nat.ne_of_gt (Nat.add_pos_left character.utf8Size_pos _)
    rw [List.cons_append, byteLength_cons, insert, if_neg some_bytes, Nat.add_sub_cancel_left, step,
      List.cons_append]

/-- A text with an opening parenthesis put in behind so many of its bytes, and a closing one. -/
def parenthesised (text : String) (opens closes : Nat) : String :=
  String.ofList (Text.insert '(' opens (Text.insert ')' closes text.toList))

example : parenthesised "1 + 2 * x" 4 9 = "1 + (2 * x)" := by decide

theorem parenthesised_toList {text : String} {front middle back : List Char}
    (same : text.toList = front ++ (middle ++ back)) :
    (parenthesised text (byteLength front) (byteLength (front ++ middle))).toList =
      front ++ '(' :: (middle ++ ')' :: back) := by
  rw [parenthesised, String.toList_ofList, same, ← List.append_assoc, Text.insert_append,
    List.append_assoc, Text.insert_append]

/-- A text with parentheses put in, directly before one of its tokens and directly behind another,
has its tokens and these. -/
theorem Lexing.Spells.parenthesised {text : String} {comments : Bool}
    {first inside last : List Token} (some_inside : inside ≠ [])
    (spells : (ofText text comments).Spells (first ++ (inside ++ last))) :
    let scanner := Scanner.ofText text comments
    let opens := (scanner.reading first.length).start
    let closes := (scanner.after (first.length + inside.length)).spot.offset
    (ofText (parenthesised text opens closes) comments).Spells
      (first ++ .openParen :: (inside ++ .closeParen :: last)) := by
  obtain ⟨before, rest, split, rfl, same⟩ := List.map_eq_append_iff.mp spells.1
  obtain ⟨part, behind, rfl, rfl, rfl⟩ := List.map_eq_append_iff.mp same
  obtain ⟨token, part, rfl⟩ := List.exists_cons_of_ne_nil (mt List.map_eq_nil_iff.mpr some_inside)
  have spelled := spells.spelled
  rw [split] at spelled
  obtain ⟨front, middle, back, cut, opens, closes, has⟩ := spelled.parenthesised
  rw [Nat.zero_add] at opens closes
  rw [← parenthesised_toList cut, ← opens, ← closes] at has
  rw [List.length_map, List.length_map]
  exact has.lexing

/-! ### Expressions -/

/-- An expression with a part in parentheses has the tokens of the text with the parentheses put in
around those of the part. It is one level deeper at most, and builders make the same of it. -/
theorem Hole.spells_parenthesised {text : String} {comments : Bool} {rules : List Rule}
    (hole : Hole (.layers rules) .expression) (part : Derivation (.layers rules))
    (spells : (Lexing.ofText text comments).Spells (hole.fill part).tokens) :
    let scanner := Scanner.ofText text comments
    let opens := (scanner.reading hole.before.length).start
    let closes := (scanner.after (hole.before.length + part.tokens.length)).spot.offset
    ∃ whole : Derivation .expression,
      whole.tokens = hole.before ++ .openParen :: (part.tokens ++ .closeParen :: hole.after) ∧
        (Lexing.ofText (parenthesised text opens closes) comments).Spells whole.tokens ∧
        whole.nesting ≤ (hole.fill part).nesting + 1 ∧
        ∀ {κ ε α : Type} (builder : Builder κ ε α),
          whole.build builder = (hole.fill part).build builder := by
  intro scanner opens closes
  obtain ⟨group, group_tokens, level, built⟩ := part.exists_parenthesised hole.suffix
  have tokens : (hole.fill group).tokens =
      hole.before ++ .openParen :: (part.tokens ++ .closeParen :: hole.after) := by
    rw [hole.fill_tokens, group_tokens, List.cons_append, List.append_assoc]
    rfl
  have some_part : part.tokens ≠ [] := by
    obtain ⟨token, rest, begins, -⟩ := part.begins
    exact begins ▸ List.cons_ne_nil token rest
  rw [hole.fill_tokens] at spells
  exact ⟨hole.fill group, tokens, tokens ▸ spells.parenthesised some_part,
    Nat.succ_le_succ (hole.fill_level (Nat.le_of_eq level)),
    fun builder => hole.fill_build builder (built builder)⟩

/-! ### Compilations -/

/-- Expressions that builders make the same of compile alike, with the same hook calls. -/
theorem compile_of_build {text text' : String} {options options' : Options}
    {derivation derivation' : Derivation .expression}
    (spells : (Lexing.ofText text options.comments).Spells derivation.tokens)
    (spells' : (Lexing.ofText text' options'.comments).Spells derivation'.tokens)
    (nesting : derivation.nesting ≤ options.depthLimit)
    (nesting' : derivation'.nesting ≤ options'.depthLimit)
    (built : ∀ {κ ε α : Type} (builder : Builder κ ε α),
      derivation'.build builder = derivation.build builder)
    {κ ε α : Type} (builder : Builder κ ε α) (context : κ) :
    hookCalls builder text options context = hookCalls builder text' options' context ∧
      (compile builder text options context).outcome =
        (compile builder text' options' context).outcome ∧
      (compile builder text options context).context =
        (compile builder text' options' context).context := by
  have parsed {κ : Type} (builder : Builder κ ε α) (context : κ) :
      parse builder.handler text options context =
        parse builder.handler text' options' context := by
    rw [parse_build builder spells nesting, parse_build builder spells' nesting', built]
  have logged := compile_of_parse builder.logged (parsed builder.logged ⟨context, []⟩)
  exact ⟨congrArg HookLog.calls logged.2, compile_of_parse builder (parsed builder context)⟩

/-- **Redundant parentheses leave no trace.** Let a text be spelled by an expression, and let a part
of it, of any layers, be put in parentheses: one is put in where the first token of the part begins,
and one where the scanner stands behind the last. Then the new text is spelled by an expression too,
which is one level deeper at most. Within every limit that admits both, every builder makes the same
hook calls in the same order for both texts, leaves the same context, and has the same value or the
same error. -/
theorem compile_parenthesised (text : String) (comments : Bool) {rules : List Rule}
    (hole : Hole (.layers rules) .expression) (part : Derivation (.layers rules))
    (spells : (Lexing.ofText text comments).Spells (hole.fill part).tokens) :
    let scanner := Scanner.ofText text comments
    let opens := (scanner.reading hole.before.length).start
    let closes := (scanner.after (hole.before.length + part.tokens.length)).spot.offset
    let text' := parenthesised text opens closes
    ∃ whole : Derivation .expression,
      whole.tokens = hole.before ++ .openParen :: (part.tokens ++ .closeParen :: hole.after) ∧
        (Lexing.ofText text' comments).Spells whole.tokens ∧
        whole.nesting ≤ (hole.fill part).nesting + 1 ∧
        ∀ depthLimit, (hole.fill part).nesting ≤ depthLimit → whole.nesting ≤ depthLimit →
          ∀ {κ ε α : Type} (builder : Builder κ ε α) (context : κ),
            let options : Options := ⟨comments, depthLimit⟩
            hookCalls builder text options context = hookCalls builder text' options context ∧
              (compile builder text options context).outcome =
                (compile builder text' options context).outcome ∧
              (compile builder text options context).context =
                (compile builder text' options context).context := by
  intro scanner opens closes text'
  obtain ⟨whole, tokens, spells', deeper, built⟩ := hole.spells_parenthesised part spells
  refine ⟨whole, tokens, spells', deeper, ?_⟩
  intro depthLimit nesting nesting' _ _ _ builder context options
  have spelled : (Lexing.ofText text options.comments).Spells (hole.fill part).tokens := spells
  have spelled' : (Lexing.ofText text' options.comments).Spells whole.tokens := spells'
  exact compile_of_build spelled spelled' nesting nesting' built builder context

/-- A product within a sum may be put in parentheses. -/
theorem compile_parenthesised_product :
    hookCalls (Builder.tree id) "1 + 2 * x" {} () =
      hookCalls (Builder.tree id) "1 + (2 * x)" {} () := by
  let sign (operand : Derivation (.layers [])) := operand.alone [.sign]
  let product : Derivation (.layers [.product, .sign]) :=
    .chain rfl (sign (.number "2"))
      (.link .times (by decide) (sign (.reference "x" .lastName .uncalled)) .lastLink)
  let hole : Hole (.layers [.product, .sign]) .expression :=
    .chainFirst rfl (.chainFirst rfl (.bare rfl (.chainFirst rfl (.chainFirst rfl (.chainFirst rfl
      (.chainLinks rfl (.alone (.number "1") _) (.linkOperand .plus (by decide) .here .lastLink))
      .lastLink) .lastLink) .lastLink)) .lastLink) .lastLink
  obtain ⟨whole, tokens, spells, deeper, alike⟩ :=
    compile_parenthesised "1 + 2 * x" true hole product (by decide +kernel)
  have nesting : (hole.fill product).nesting = 1 := by decide +kernel
  have same := (alike 32 (by omega) (by omega) (Builder.tree id) ()).1
  have opens : ((Scanner.ofText "1 + 2 * x" true).reading hole.before.length).start = 4 := by
    decide +kernel
  have closes : ((Scanner.ofText "1 + 2 * x" true).after
      (hole.before.length + product.tokens.length)).spot.offset = 9 := by
    decide +kernel
  have placed : parenthesised "1 + 2 * x" 4 9 = "1 + (2 * x)" := by decide
  rw [opens, closes, placed] at same
  exact same

end Formula
