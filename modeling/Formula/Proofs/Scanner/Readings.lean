/-
**What is read spells the token, and all spellings are read.**

One reading passes over trivia and reads one token. Both parts are read in one way: trivia end where
a spelling begins, and a token ends where no longer run of characters spells one.

* `Scanner.scan_reads`: what is read as a token spells it and does not go on.
* `Scanner.scan_of_spelledBy`: a spelling that does not go on is read as its token.
-/

import Formula.Proofs.Scanner.Numerals

namespace Formula

namespace Scanner

/-! ### Trivia -/

/-- A comment that has come to its end is as if it had never begun. -/
theorem pastTrivia_ended {comments : Bool} {offset : Nat} {text : List Char}
    (ends : ∀ next ∈ text.head?, next = '\n') :
    pastTrivia comments true offset text = pastTrivia comments false offset text := by
  cases text with
  | nil => rfl
  | cons next rest =>
    cases ends next rfl
    rfl

theorem pastTrivia_body {comments : Bool} {body rest : List Char}
    (inLine : ∀ character ∈ body, character ≠ '\n') (offset : Nat) :
    pastTrivia comments true offset (body ++ rest) =
      pastTrivia comments true (offset + byteLength body) rest := by
  induction body generalizing offset with
  | nil => rfl
  | cons character body step =>
    rw [List.forall_mem_cons] at inLine
    have more : (character != '\n') = true := bne_iff_ne.mpr inLine.1
    rw [List.cons_append, pastTrivia, if_pos rfl, more, step inLine.2, byteLength_cons,
      Nat.add_assoc]

/-- Trivia are passed over, and what comes after them as if they were not there. -/
theorem pastTrivia_append {comments : Bool} {trivia rest : List Char}
    (between : Trivia comments rest trivia) (offset : Nat) :
    pastTrivia comments false offset (trivia ++ rest) =
      pastTrivia comments false (offset + byteLength trivia) rest := by
  induction between generalizing offset with
  | nothing => rfl
  | blank isBlank more step =>
    rw [List.cons_append, pastTrivia, if_neg Bool.false_ne_true, if_pos (isBlank_iff.mpr isBlank),
      step, byteLength_cons, Nat.add_assoc]
  | @comment body run passed inLine ends more step =>
    have begins : (comments && '#' == '#') = true := by rw [passed]; rfl
    rw [List.cons_append, List.append_assoc, pastTrivia, if_neg Bool.false_ne_true,
      if_neg (by decide), if_pos begins, pastTrivia_body inLine, pastTrivia_ended ends, step,
      byteLength_cons, byteLength_append, Nat.add_assoc, Nat.add_assoc]

/-- Trivia are passed over, up to what is neither a blank nor the beginning of a comment. -/
theorem pastTrivia_of_trivia {comments : Bool} {trivia rest : List Char}
    (between : Trivia comments rest trivia)
    (stops : ∀ next ∈ rest.head?, Text.isBlank next = false ∧ next ≠ '#') (offset : Nat) :
    pastTrivia comments false offset (trivia ++ rest) =
      ⟨offset + byteLength trivia, rest⟩ := by
  rw [pastTrivia_append between]
  cases rest with
  | nil => rfl
  | cons next rest =>
    obtain ⟨no_blank, no_comment⟩ := stops next rfl
    have other : (comments && next == '#') = false := by
      rw [beq_false_of_ne no_comment, Bool.and_false]
    rw [pastTrivia, if_neg Bool.false_ne_true, no_blank, if_neg Bool.false_ne_true, other,
      if_neg Bool.false_ne_true]

/-- What is passed over is trivia; within a comment, the rest of the comment and then trivia. -/
theorem pastTrivia_passes (comments : Bool) (text : List Char) (offset : Nat) :
    (∃ trivia, text = trivia ++ (pastTrivia comments false offset text).rest ∧
        Trivia comments (pastTrivia comments false offset text).rest trivia) ∧
      ∃ body trivia, text = body ++ (trivia ++ (pastTrivia comments true offset text).rest) ∧
        (∀ character ∈ body, character ≠ '\n') ∧
        (∀ next ∈ (trivia ++ (pastTrivia comments true offset text).rest).head?, next = '\n') ∧
        Trivia comments (pastTrivia comments true offset text).rest trivia := by
  induction text generalizing offset with
  | nil => exact ⟨⟨[], rfl, .nothing⟩, [], [], rfl, by simp, by simp [pastTrivia], .nothing⟩
  | cons character text step =>
    obtain ⟨⟨trivia, same, between⟩, body, after, comment_same, inLine, ends, beyond⟩ :=
      step (offset + character.utf8Size)
    constructor
    · rw [pastTrivia, if_neg Bool.false_ne_true]
      by_cases blank : Text.isBlank character = true
      · rw [if_pos blank]
        exact ⟨character :: trivia, congrArg _ same, .blank (isBlank_iff.mp blank) between⟩
      · rw [if_neg blank]
        by_cases begins : (comments && character == '#') = true
        · rw [if_pos begins]
          rw [Bool.and_eq_true, beq_iff_eq] at begins
          obtain ⟨passed, rfl⟩ := begins
          refine ⟨'#' :: (body ++ after), ?_, .comment passed inLine ends beyond⟩
          rw [List.cons_append, List.append_assoc, ← comment_same]
        · rw [if_neg begins]
          exact ⟨[], rfl, .nothing⟩
    · rw [pastTrivia, if_pos rfl]
      by_cases ended : character = '\n'
      · cases ended
        refine ⟨[], '\n' :: trivia, congrArg _ same, by simp, ?_, .blank (by decide) between⟩
        rintro next ⟨⟩
        rfl
      · rw [bne_iff_ne.mpr ended]
        refine ⟨character :: body, after, congrArg _ comment_same, ?_, ends, beyond⟩
        exact List.forall_mem_cons.mpr ⟨ended, inLine⟩

/-! ### Quoted texts -/

theorem scanContent_reads {opening offset : Nat} {quote : Char} {before text : List Char}
    {token : Token} {after : Spot}
    (scanned : scanContent opening quote offset before text = (.ok token, after)) :
    ∃ body content, text = body ++ quote :: after.rest ∧ Quotes quote body content ∧
      token = .text (String.ofList (before.reverse ++ content)) := by
  fun_induction scanContent opening quote offset before text with
  | case1 => cases scanned
  | case2 offset before rest =>
    cases scanned
    exact ⟨[], [], rfl, .nothing, by rw [List.append_nil]⟩
  | case3 => cases scanned
  | case4 offset before escape rest meant found inside step =>
    obtain ⟨body, content, rfl, quotes, rfl⟩ := step scanned
    have known := unescape_eq_some_iff.mp found
    exact ⟨'\\' :: escape :: body, meant :: content, rfl, .escaped known quotes, by simp⟩
  | case5 => cases scanned
  | case6 offset before character rest inside unescaped step =>
    obtain ⟨body, content, rfl, quotes, rfl⟩ := step scanned
    exact ⟨character :: body, character :: content, rfl, .plain inside unescaped quotes, by simp⟩

/-- A quote begins a text and nothing else. -/
theorem quote_begins {quote : Char} (is_quote : quote ∈ ['"', '\'']) :
    quote.isDigit = false ∧ isNameStart quote = false ∧
      (quote == '"' || quote == '\'') = true := by
  simp only [List.mem_cons, List.not_mem_nil, or_false] at is_quote
  rcases is_quote with rfl | rfl <;> decide

theorem backslash_ne {quote : Char} (is_quote : quote ∈ ['"', '\'']) : '\\' ≠ quote := by
  rintro rfl
  exact absurd is_quote (by decide)

/-- What stands for content is passed over, up to any rest. -/
theorem scanContent_body {quote : Char} (is_quote : quote ∈ ['"', '\''])
    {body content : List Char} (quotes : Quotes quote body content) (opening offset : Nat)
    (before rest : List Char) :
    scanContent opening quote offset before (body ++ rest) =
      scanContent opening quote (offset + byteLength body) (content.reverse ++ before) rest := by
  have no_backslash := backslash_ne is_quote
  induction quotes generalizing offset before with
  | nothing => rfl
  | @plain character body content inside unescaped more step =>
    rw [List.cons_append, scanContent.eq_def]
    simp only [if_neg inside, if_neg unescaped]
    rw [step, byteLength_cons, List.reverse_cons, List.append_assoc, List.singleton_append,
      Nat.add_assoc]
  | @escaped escape character body content known more step =>
    have meant := unescape_eq_some_iff.mpr known
    rw [List.cons_append, List.cons_append, scanContent.eq_def]
    simp only [if_neg no_backslash, if_pos, meant]
    rw [step, byteLength_cons, byteLength_cons, List.reverse_cons, List.append_assoc,
      List.singleton_append]
    simp only [Nat.add_assoc]

theorem scanContent_of_quotes {quote : Char} (is_quote : quote ∈ ['"', '\''])
    {body content : List Char} (quotes : Quotes quote body content) (opening offset : Nat)
    (before rest : List Char) :
    scanContent opening quote offset before (body ++ quote :: rest) =
      (.ok (.text (String.ofList (before.reverse ++ content))),
        ⟨offset + byteLength body + quote.utf8Size, rest⟩) := by
  rw [scanContent_body is_quote quotes, scanContent.eq_def]
  simp only [if_true, List.reverse_append, List.reverse_reverse]

/-! ### Words -/

theorem spelledBy_ofWord {letters : List Char} (word : IsWord letters) :
    (Token.ofWord (String.ofList letters)).SpelledBy letters := by
  have spelled : (String.ofList letters).toList = letters := String.toList_ofList
  unfold Token.ofWord
  split
  · exact (congrArg String.toList ‹_›).symm.trans spelled |>.symm
  · exact (congrArg String.toList ‹_›).symm.trans spelled |>.symm
  · exact (congrArg String.toList ‹_›).symm.trans spelled |>.symm
  · rename_i no_and no_or no_not
    exact ⟨⟨spelled.symm ▸ word, no_and, no_or, no_not⟩, spelled.symm⟩

theorem endsAt_ofWord (word : String) (spelling rest : List Char) :
    (Token.ofWord word).EndsAt spelling rest ↔ ∀ next ∈ rest.head?, ¬ IsWordPart next := by
  unfold Token.ofWord
  split <;> exact Iff.rfl

theorem isWord_span {spot : Spot} {first : Char} {more : List Char}
    (here : spot.rest = first :: more) (starts : isNameStart first = true) :
    IsWord (spot.span isNamePart).1 := by
  have letters : (spot.span isNamePart).1 = first :: more.takeWhile isNamePart := by
    rw [Spot.span, here, List.takeWhile_cons_of_pos (isNamePart_of_isNameStart starts)]
  refine ⟨first, _, letters, isNameStart_iff.mp starts, fun part inside => ?_⟩
  exact isNamePart_iff.mp (spot.span_all isNamePart part (letters ▸ List.mem_cons_of_mem _ inside))

theorem word_ends (spot : Spot) :
    ∀ next ∈ (spot.span isNamePart).2.rest.head?, ¬ IsWordPart next :=
  fun next first => isNamePart_eq_false_iff.mp (spot.span_stops isNamePart next first)

theorem span_of_word {spot : Spot} {word rest : List Char} (isWord : IsWord word)
    (here : spot.rest = word ++ rest) (ends : ∀ next ∈ rest.head?, ¬ IsWordPart next) :
    spot.span isNamePart = (word, ⟨spot.offset + byteLength word, rest⟩) :=
  Spot.span_of_run here isWord.parts fun next first =>
    isNamePart_eq_false_iff.mpr (ends next first)

theorem scanWord_reads {spot after : Spot} {first : Char} {more : List Char} {token : Token}
    (here : spot.rest = first :: more) (starts : isNameStart first = true)
    (scanned : scanWord spot = (.ok token, after)) :
    ∃ spelling, spot.rest = spelling ++ after.rest ∧ token.SpelledBy spelling ∧
      token.EndsAt spelling after.rest := by
  cases scanned
  exact ⟨_, (spot.span_append isNamePart).symm, spelledBy_ofWord (isWord_span here starts),
    (endsAt_ofWord ..).mpr (word_ends spot)⟩

theorem scan_of_word {spot : Spot} {word rest : List Char} (isWord : IsWord word)
    (here : spot.rest = word ++ rest) (ends : ∀ next ∈ rest.head?, ¬ IsWordPart next) :
    scan spot = (.ok (.ofWord (String.ofList word)), ⟨spot.offset + byteLength word, rest⟩) := by
  have read := span_of_word isWord here ends
  obtain ⟨first, parts, rfl, letter, -⟩ := isWord
  have starts := isNameStart_iff.mpr letter
  have no_digit := isDigit_of_isNameStart starts
  simp only [scan, here, List.cons_append, no_digit, starts, if_true, scanWord, read,
    Bool.false_eq_true, if_false]

/-! ### Marks -/

theorem mark?_eq_none_iff {character : Char} {rest : List Char} :
    mark? (character :: rest) = none ↔
      character ∉ marks ∧ ¬ (character ∈ ['=', '!'] ∧ rest.head? = some '=') := by
  constructor
  · intro nothing
    constructor
    · intro is_mark
      simp only [marks, List.mem_cons, List.not_mem_nil, or_false] at is_mark
      unfold mark? at nothing
      split at nothing
      case h_19 => simp_all
      all_goals cases nothing
    · rintro ⟨is_mark, equals⟩
      obtain ⟨more, rfl⟩ := List.head?_eq_some_iff.mp equals
      simp only [List.mem_cons, List.not_mem_nil, or_false] at is_mark
      rcases is_mark with rfl | rfl <;> cases nothing
  · rintro ⟨no_mark, no_equals⟩
    unfold mark?
    split
    all_goals first
      | rfl
      | rename_i same; cases same; exact absurd (by decide) no_mark
      | rename_i same; cases same; exact absurd ⟨by decide, rfl⟩ no_equals

/-- A mark spells its token, and is not the beginning of a longer one. -/
theorem mark?_reads {text : List Char} {token : Token} {width : Nat}
    (found : mark? text = some (token, width)) :
    token.SpelledBy (text.take width) ∧ token.EndsAt (text.take width) (text.drop width) := by
  unfold mark? at found
  split at found <;> cases found
  case h_5 rest no_longer =>
    refine ⟨rfl, fun next first same => ?_⟩
    cases rest with
    | nil => cases first
    | cons character rest => cases first; exact no_longer rest (same ▸ rfl)
  case h_6 rest no_longer =>
    refine ⟨rfl, fun next first same => ?_⟩
    cases rest with
    | nil => cases first
    | cons character rest => cases first; exact no_longer rest (same ▸ rfl)
  all_goals exact ⟨rfl, trivial⟩

/-- What begins a mark begins nothing else. -/
theorem mark?_head {first : Char} {rest : List Char}
    (found : (mark? (first :: rest)).isSome = true) :
    first.isDigit = false ∧ isNameStart first = false ∧
      (first == '"' || first == '\'') = false := by
  unfold mark? at found
  split at found
  case h_19 => cases found
  all_goals
    rename_i same
    cases same
    decide

theorem scan_of_mark {spot : Spot} {token : Token} {spelling rest : List Char}
    (here : spot.rest = spelling ++ rest)
    (found : mark? spot.rest = some (token, spelling.length)) :
    scan spot = (.ok token, ⟨spot.offset + byteLength spelling, rest⟩) := by
  have skipped : spot.skip spelling.length = ⟨spot.offset + byteLength spelling, rest⟩ := by
    rw [Spot.skip, here, List.take_left, List.drop_left]
  unfold scan
  cases begins : spot.rest with
  | nil => rw [begins] at found; cases found
  | cons first after =>
    rw [begins] at found
    have begun : (mark? (first :: after)).isSome = true := by
      rw [found]
      rfl
    obtain ⟨no_digit, no_letter, no_quote⟩ := mark?_head begun
    simp only [no_digit, no_letter, no_quote, found, skipped, Bool.false_eq_true, if_false]

/-- A mark that is the beginning of a longer one is read where the longer one does not stand. -/
theorem mark?_of_shorter {rest : List Char} (ends : ∀ next ∈ rest.head?, next ≠ '=') :
    mark? ('<' :: rest) = some (.operator .less, 1) ∧
      mark? ('>' :: rest) = some (.operator .greater, 1) := by
  have no_longer : ∀ tail, rest = '=' :: tail → False := by
    rintro tail rfl
    exact ends '=' rfl rfl
  constructor
  · rw [mark?]
    exact no_longer
  · rw [mark?]
    exact no_longer

/-! ### One reading -/

/-- What is read as a token spells it, and does not go on. -/
theorem scan_reads {spot after : Spot} {token : Token} (scanned : scan spot = (.ok token, after))
    (more : token ≠ .endOfInput) :
    ∃ spelling, spot.rest = spelling ++ after.rest ∧
      after.offset = spot.offset + byteLength spelling ∧ token.SpelledBy spelling ∧
        token.EndsAt spelling after.rest := by
  have spelled : ∃ spelling, spot.rest = spelling ++ after.rest ∧ token.SpelledBy spelling ∧
      token.EndsAt spelling after.rest := by
    unfold scan at scanned
    split at scanned
    · cases scanned
      exact (more rfl).elim
    · rename_i first rest here
      split at scanned
      · rename_i digit
        exact scanNumber_reads here digit scanned
      · split at scanned
        · rename_i starts
          exact scanWord_reads here starts scanned
        · split at scanned
          · rename_i quote
            obtain ⟨body, content, same, quotes, rfl⟩ := scanContent_reads scanned
            refine ⟨first :: (body ++ [first]), ?_, ⟨first, ?_, body, ?_, rfl⟩, trivial⟩
            · rw [here, same, List.cons_append, List.append_assoc, List.singleton_append]
            · simpa using quote
            · rwa [String.toList_ofList]
          · split at scanned
            · rename_i found
              cases scanned
              obtain ⟨spells, ends⟩ := mark?_reads found
              rw [← here] at spells ends
              exact ⟨_, (List.take_append_drop ..).symm, spells, ends⟩
            · cases scanned
  obtain ⟨spelling, same, spells, ends⟩ := spelled
  have leads := scan_leads spot
  rw [scanned] at leads
  exact ⟨spelling, same, leads.offset_eq same, spells, ends⟩

/-- A spelling that does not go on is read as its token. -/
theorem scan_of_spelledBy {spot : Spot} {token : Token} {spelling rest : List Char}
    (here : spot.rest = spelling ++ rest) (spells : token.SpelledBy spelling)
    (ends : token.EndsAt spelling rest) :
    scan spot = (.ok token, ⟨spot.offset + byteLength spelling, rest⟩) := by
  cases token with
  | number lexeme =>
    obtain ⟨digit, more, same, isDigit⟩ := spells.1.head
    rw [← scanNumber_of_spelledBy here spells ends, scan, here, same, List.cons_append]
    exact if_pos isDigit
  | text content =>
    obtain ⟨quote, is_quote, body, quotes, rfl⟩ := spells
    have opening := quote_begins is_quote
    rw [List.cons_append, List.append_assoc, List.singleton_append] at here
    simp only [scan, here, opening, Bool.false_eq_true, if_false, if_true]
    rw [scanContent_of_quotes is_quote quotes, byteLength_cons, byteLength_append, List.reverse_nil,
      List.nil_append, String.ofList_toList]
    simp only [byteLength, List.foldr_cons, List.foldr_nil, Nat.add_assoc, Nat.add_zero]
  | name letters =>
    obtain ⟨⟨isWord, no_and, no_or, no_not⟩, rfl⟩ := spells
    rw [scan_of_word isWord here ends, String.ofList_toList, Token.ofWord]
    all_goals assumption
  | operator which =>
    cases show spelling = which.symbol.toList from spells
    cases which with
    | or =>
      have isWord : IsWord ['o', 'r'] := by decide
      exact scan_of_word isWord here ends
    | and =>
      have isWord : IsWord ['a', 'n', 'd'] := by decide
      exact scan_of_word isWord here ends
    | not =>
      have isWord : IsWord ['n', 'o', 't'] := by decide
      exact scan_of_word isWord here ends
    | less => exact scan_of_mark here (here ▸ (mark?_of_shorter ends).1)
    | greater => exact scan_of_mark here (here ▸ (mark?_of_shorter ends).2)
    | _ => exact scan_of_mark here (here ▸ rfl)
  | endOfInput => exact spells.elim
  | _ =>
    cases spells
    exact scan_of_mark here (here ▸ rfl)

end Scanner

end Formula
