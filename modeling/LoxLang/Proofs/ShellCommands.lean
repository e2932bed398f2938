import LoxLang.Proofs.ShellLines

/-!
# Lines that are no commands

A line whose first word is the name of a command may be a program all the same. What is behind the
blanks at the two ends of a line is run as a source, unless it is the name of a command and nothing
else, or its first word is the one for the end of the input: behind that word whatever follows is
dropped, and the shell is left.
-/

namespace LoxLang

/-! ## Blanks at the ends of a text -/

namespace Text

variable {text : List Char}

/-- Whether a text is some blanks, a core, and more blanks, where the core does not begin or end
with a blank. -/
structure Trimmed (text front core back : List Char) : Prop where
  parts : text = front ++ (core ++ back)
  blankFront : ∀ character ∈ front, isBlank character = true
  blankBack : ∀ character ∈ back, isBlank character = true
  first : ∀ character ∈ core.head?, isBlank character = false
  last : ∀ character ∈ core.getLast?, isBlank character = false

theorem isBlank_of_mem_head?_dropWhile (text : List Char) {character : Char}
    (isFirst : character ∈ (text.dropWhile isBlank).head?) : isBlank character = false := by
  have notBlank := text.head?_dropWhile_not isBlank
  rw [isFirst] at notBlank
  exact notBlank

/-- What is left of a text without the blanks at its ends is its core. -/
theorem exists_trimmed (text : List Char) :
    ∃ front back, Trimmed text front (strip text) back := by
  have behind : text.dropWhile isBlank =
      strip text ++ ((text.dropWhile isBlank).reverse.takeWhile isBlank).reverse := by
    rw [strip, ← List.reverse_append, List.takeWhile_append_dropWhile, List.reverse_reverse]
  refine ⟨text.takeWhile isBlank, _, ⟨behind ▸ List.takeWhile_append_dropWhile.symm, ?_, ?_, ?_,
    ?_⟩⟩
  · exact fun _ => List.mem_takeWhile_imp
  · intro character isBack
    exact List.mem_takeWhile_imp (List.mem_reverse.mp isBack)
  · intro character isFirst
    refine isBlank_of_mem_head?_dropWhile text ?_
    rw [behind, List.head?_append, isFirst]
    rfl
  · intro character isLast
    rw [strip, List.getLast?_reverse] at isLast
    exact isBlank_of_mem_head?_dropWhile _ isLast

/-- A text of which nothing is left holds blanks only. -/
theorem isBlank_of_strip_eq_nil (isNothing : strip text = []) :
    ∀ character ∈ text, isBlank character = true := by
  rcases exists_trimmed text with ⟨front, back, trimmed⟩
  rw [trimmed.parts, isNothing]
  exact List.forall_mem_append.mpr ⟨trimmed.blankFront, trimmed.blankBack⟩

end Text

namespace Shell

open Session

/-! ## The first word of a line -/

/-- The longest word at the start of a text. -/
def firstWord (code : List Char) : String :=
  String.ofList (code.takeWhile Text.isWordPart)

/-- Where there is nothing but blanks behind the first word of a text that does not end with a
blank, the text is that word. -/
theorem firstWord_eq_self {code : List Char}
    (last : ∀ character ∈ code.getLast?, Text.isBlank character = false)
    (noArgument : Text.strip (code.dropWhile Text.isWordPart) = []) :
    firstWord code = String.ofList code := by
  have parts := List.takeWhile_append_dropWhile (p := Text.isWordPart) (l := code)
  have behind : code.dropWhile Text.isWordPart = [] := by
    by_contra someBehind
    have isLast : code.getLast? = (code.dropWhile Text.isWordPart).getLast? := by
      conv_lhs => rw [← parts, List.getLast?_append_of_ne_nil _ someBehind]
    have inside := List.getLast_mem someBehind
    have isBlank := Text.isBlank_of_strip_eq_nil noArgument _ inside
    rw [last _ (isLast ▸ List.getLast?_eq_getLast_of_ne_nil someBehind)] at isBlank
    cases isBlank
  rw [behind, List.append_nil] at parts
  rw [firstWord, parts]

/-- A line that is no command is run, unless its first word is the one for the end of the input. -/
theorem ofWords_of_code {code : List Char}
    (last : ∀ character ∈ code.getLast?, Text.isBlank character = false)
    (notHelp : String.ofList code ≠ "help") (notExit : String.ofList code ≠ "exit")
    (notEnd : firstWord code ≠ endOfInput) : ofWords code = .run (String.ofList code) := by
  have takesArgument {word : String} (notWord : String.ofList code ≠ word) :
      ¬ (firstWord code = word ∧ Text.strip (code.dropWhile Text.isWordPart) = []) := by
    rintro ⟨rfl, noArgument⟩
    exact notWord (firstWord_eq_self last noArgument).symm
  have notHelp := takesArgument notHelp
  have notExit := takesArgument notExit
  simp only [firstWord, endOfInput] at notEnd notHelp notExit
  simp [ofWords, notEnd, notHelp, notExit]

theorem spellOut_of_code {code : List Char} (noMark : code.head? ≠ some '?') :
    spellOut code = code := by
  unfold spellOut
  split
  · simp at noMark
  · rfl

/-- What a line asks for that is not empty and does not ask for help by a question mark. -/
theorem command_of_code {line : String} (someCode : Text.strip line.toList ≠ [])
    (noMark : (Text.strip line.toList).head? ≠ some '?') :
    command line = ofWords (Text.strip line.toList) := by
  simp [command, someCode, spellOut_of_code noMark]

/-- A line that is not empty, is not the name of a command and does not start with a question mark
is run as a source, without the blanks at its ends, and the shell goes on with the next line unless
the process is to be left. But a line whose first word is the one for the end of the input is not
run: the shell is left, whatever follows that word. -/
theorem answer_of_code (setting : Setting) (line : String) (session : Session)
    (someCode : Text.strip line.toList ≠ [])
    (noCommand : String.ofList (Text.strip line.toList) ∉ ["help", "exit", "EOF"])
    (noMark : (Text.strip line.toList).head? ≠ some '?') :
    let code := Text.strip line.toList
    (∃ front back, Text.Trimmed line.toList front code back) ∧
      (firstWord code ≠ "EOF" →
        answer setting line session =
          ((fun _ => false) <$> runSource setting (String.ofList code) : SessionStep Bool) session ∧
        ∀ after, answer setting line session ≠ .ok true after) ∧
      (firstWord code = "EOF" →
        code.dropWhile Text.isWordPart ≠ [] ∧
        answer setting line session = .ok true (session.write .output "\n")) := by
  intro code
  rcases Text.exists_trimmed line.toList with ⟨front, back, trimmed⟩
  have isCommand : command line = ofWords code := command_of_code someCode noMark
  simp only [List.mem_cons, List.not_mem_nil, or_false, not_or] at noCommand
  refine ⟨⟨front, back, trimmed⟩, fun notEnd => ?_, fun isEnd => ⟨fun noRest => ?_, ?_⟩⟩
  · have runs : answer setting line session =
        ((fun _ => false) <$> runSource setting (String.ofList code) : SessionStep Bool)
          session := by
      rw [answer, isCommand, ofWords_of_code trimmed.last noCommand.1 noCommand.2.1 notEnd, obey]
      simp only [Functor.map, EStateM.map]
      cases runSource setting (String.ofList code) session <;> rfl
    refine ⟨runs, fun after stops => ?_⟩
    rw [runs] at stops
    simp only [Functor.map, EStateM.map] at stops
    split at stops <;> cases stops
  · have isWord := List.takeWhile_append_dropWhile (p := Text.isWordPart) (l := code)
    rw [noRest, List.append_nil] at isWord
    rw [firstWord, isWord] at isEnd
    exact noCommand.2.2 isEnd
  · have isEnd : String.ofList (code.takeWhile Text.isWordPart) = "EOF" := isEnd
    rw [answer, isCommand]
    simp only [ofWords, isEnd, obey, beq_self_eq_true, if_true]

/-- A call of a function that is named like a command. -/
theorem answer_of_code_exit :
    let setting : Setting := ⟨30, 5, fun _ => 0⟩
    let before := final (answer setting "fun exit(x) \x7b return x; \x7d" opened)
    firstWord "exit(nil)".toList = "exit" ∧
      answer setting " exit(nil) " before =
        ((fun _ => false) <$> runSource setting "exit(nil)" : SessionStep Bool) before := by
  intro setting before
  have runs := (answer_of_code setting " exit(nil) " before (by decide +kernel) (by decide +kernel)
    (by decide +kernel)).2.1 (by decide +kernel)
  exact ⟨by decide +kernel, runs.1⟩

/-- A sum is not run but ends the shell, because its first operand has the name for the end of the
input. -/
theorem answer_of_code_endOfInput :
    let setting : Setting := ⟨30, 5, fun _ => 0⟩
    let session : Session := { mode := { interactive := true }, reporter := { fatal := false } }
    let line := "EOF + \"b\""
    let before := final (answer setting "var EOF = \"a\"" session)
    String.ofList (Text.strip line.toList) = line ∧ line ∉ ["help", "exit", "EOF"] ∧
      line.toList.head? ≠ some '?' ∧
      (final (runSource setting line before)).transcript.text = "ab\n" ∧
      answer setting line before = .ok true (before.write .output "\n") := by
  intro setting session line before
  refine ⟨by decide +kernel, by decide +kernel, by decide +kernel, by decide +kernel, ?_⟩
  have isCommand : command line = .endOfInput := by decide +kernel
  rw [answer, isCommand, obey]

end Shell
end LoxLang
