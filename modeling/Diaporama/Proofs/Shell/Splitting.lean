import Diaporama.Job
import Diaporama.Proofs.Text.Characters

/-!
# How a shell splits a command line

A shell reads a line character by character: text between single quotes is literal, outside of them
a backslash makes the next character literal, and blanks part the words. Read this way, a line gives
back the arguments it was written from, and nothing outside its quotes means anything to a shell.
-/

namespace Diaporama.Shell

/-! ## Reading a line -/

/-- Where a reader stands between two characters. -/
inductive Mode where
  | bare
  | quoted
  /-- Behind a backslash. -/
  | escaped

/-- A part of a line; a mark is a single quote that opens or closes quoted text. -/
inductive Lexeme where
  | blank (c : Char)
  | plain (c : Char)
  | escaped (c : Char)
  | quoted (c : Char)
  | mark

def isBlank (c : Char) : Bool :=
  c == ' ' || c == '\t' || c == '\n'

/-- The parts of a text; there are none if it ends inside quotes or in a backslash. -/
def lexemes : Mode → List Char → Option (List Lexeme)
  | .bare, [] => some []
  | .quoted, [] => none
  | .escaped, [] => none
  | .bare, c :: cs =>
    if c = '\'' then (lexemes .quoted cs).map (.mark :: ·)
    else if c = '\\' then lexemes .escaped cs
    else if isBlank c then (lexemes .bare cs).map (.blank c :: ·)
    else (lexemes .bare cs).map (.plain c :: ·)
  | .quoted, c :: cs =>
    if c = '\'' then (lexemes .bare cs).map (.mark :: ·)
    else (lexemes .quoted cs).map (.quoted c :: ·)
  | .escaped, c :: cs => (lexemes .bare cs).map (.escaped c :: ·)

namespace Lexeme

def source : Lexeme → List Char
  | blank c | plain c | quoted c => [c]
  | escaped c => ['\\', c]
  | mark => ['\'']

/-- What a part adds to the word it stands in; a blank stands in none. -/
def text? : Lexeme → Option (List Char)
  | blank _ => none
  | plain c | escaped c | quoted c => some [c]
  | mark => some []

def isBlank (l : Lexeme) : Bool :=
  l.text?.isNone

/-- Outside quotes: one kind of blank, letters, digits and a few signs, and single quotes behind a
backslash. -/
def Inert : Lexeme → Prop
  | blank c => c = ' '
  | plain c => 'A' ≤ c ∧ c ≤ 'Z' ∨ 'a' ≤ c ∧ c ≤ 'z' ∨ '0' ≤ c ∧ c ≤ '9' ∨
      c ∈ ['-', '_', '.', ',', '/', ':', '=', '+', '@', '%']
  | escaped c => c = '\''
  | quoted _ | mark => True

end Lexeme

/-- The words that parts make up, when `word` was begun before them. -/
def words : Option (List Char) → List Lexeme → List (List Char)
  | word, [] => word.toList
  | word, l :: ls =>
    match l.text? with
    | none => word.toList ++ words none ls
    | some cs => words (some (word.getD [] ++ cs)) ls

def split (line : String) : Option (List String) :=
  (lexemes .bare line.toList).map fun ls => (words none ls).map String.ofList

/-- What was read on the way to a mode and belongs to the next part. -/
def Mode.pending : Mode → List Char
  | bare | quoted => []
  | escaped => ['\\']

theorem flatMap_source_of_lexemes {mode : Mode} {cs : List Char} {ls : List Lexeme}
    (h : lexemes mode cs = some ls) : ls.flatMap Lexeme.source = mode.pending ++ cs := by
  induction cs generalizing mode ls with
  | nil =>
      cases mode with
      | bare =>
          cases h
          rfl
      | quoted => cases h
      | escaped => cases h
  | cons c cs ih =>
      cases mode with
      | bare =>
          simp only [lexemes] at h
          split at h
          · obtain ⟨rest, hRest, rfl⟩ := Option.map_eq_some_iff.mp h
            simp [Lexeme.source, Mode.pending, ih hRest, *]
          split at h
          · simp [Mode.pending, ih h, *]
          split at h
          all_goals
            obtain ⟨rest, hRest, rfl⟩ := Option.map_eq_some_iff.mp h
            simp [Lexeme.source, Mode.pending, ih hRest]
      | quoted =>
          simp only [lexemes] at h
          split at h
          all_goals
            obtain ⟨rest, hRest, rfl⟩ := Option.map_eq_some_iff.mp h
            simp [Lexeme.source, Mode.pending, ih hRest, *]
      | escaped =>
          obtain ⟨rest, hRest, rfl⟩ := Option.map_eq_some_iff.mp h
          simp [Lexeme.source, Mode.pending, ih hRest]

/-! ## The parts of a written word -/

def quotedLexemes (cs : List Char) : List Lexeme :=
  cs.flatMap fun c => if c = '\'' then [.mark, .escaped c, .mark] else [.quoted c]

def wordLexemes (cs : List Char) : List Lexeme :=
  if isPlain cs then cs.map .plain else .mark :: quotedLexemes cs ++ [.mark]

theorem isPlain_iff {cs : List Char} :
    isPlain cs = true ↔ cs ≠ [] ∧ ∀ c ∈ cs, isHarmless c = true := by
  simp [isPlain]

theorem ne_of_isHarmless {c : Char} (h : isHarmless c = true) :
    c ≠ '\'' ∧ c ≠ '\\' ∧ isBlank c = false := by
  have hNot : ∀ d ∈ ['\'', '\\', ' ', '\t', '\n'], c ≠ d := by
    rintro d hd rfl
    revert h
    simp only [List.mem_cons, List.not_mem_nil, or_false] at hd
    rcases hd with rfl | rfl | rfl | rfl | rfl <;> decide
  simp only [List.mem_cons, List.not_mem_nil, or_false, forall_eq_or_imp, forall_eq] at hNot
  simp [isBlank, hNot]

theorem inert_plain_of_isHarmless {c : Char} (h : isHarmless c = true) :
    (Lexeme.plain c).Inert := by
  rcases Bool.or_eq_true_iff.mp h with hAlphanum | hSign
  · rcases Bool.or_eq_true_iff.mp hAlphanum with hAlpha | hDigit
    · rcases Bool.or_eq_true_iff.mp hAlpha with hUpper | hLower
      · exact .inl (of_decide_eq_true hUpper)
      · obtain ⟨hLow, hHigh⟩ := Bool.and_eq_true_iff.mp hLower
        exact .inr (.inl ⟨of_decide_eq_true hLow, of_decide_eq_true hHigh⟩)
    · obtain ⟨hLow, hHigh⟩ := Bool.and_eq_true_iff.mp hDigit
      exact .inr (.inr (.inl ⟨of_decide_eq_true hLow, of_decide_eq_true hHigh⟩))
  · exact .inr (.inr (.inr (List.contains_iff_mem.mp hSign)))

theorem lexemes_escape_append (cs rest : List Char) :
    lexemes .quoted (escape cs ++ rest) = (lexemes .quoted rest).map (quotedLexemes cs ++ ·) := by
  induction cs with
  | nil => simp [escape, quotedLexemes]
  | cons c cs ih =>
      unfold escape quotedLexemes at *
      rw [List.flatMap_cons, List.flatMap_cons, List.append_assoc]
      by_cases hc : c = '\''
      -- A quote of the text leaves the quotes, is escaped, and enters them again.
      · subst hc
        simp [lexemes, ih, Function.comp_def]
      · simp [lexemes, hc, ih, Function.comp_def]

theorem lexemes_plain_append {cs : List Char} (h : ∀ c ∈ cs, isHarmless c = true)
    (rest : List Char) :
    lexemes .bare (cs ++ rest) = (lexemes .bare rest).map (cs.map .plain ++ ·) := by
  induction cs with
  | nil => simp
  | cons c cs ih =>
      obtain ⟨hc, hcs⟩ := List.forall_mem_cons.mp h
      obtain ⟨hQuote, hBackslash, hBlank⟩ := ne_of_isHarmless hc
      simp [lexemes, hQuote, hBackslash, hBlank, ih hcs, Function.comp_def]

theorem lexemes_wordChars_append (cs rest : List Char) :
    lexemes .bare (wordChars cs ++ rest) = (lexemes .bare rest).map (wordLexemes cs ++ ·) := by
  unfold wordChars wordLexemes
  by_cases hPlain : isPlain cs = true
  · simp only [hPlain, if_true]
    exact lexemes_plain_append (isPlain_iff.mp hPlain).2 rest
  · rw [if_neg hPlain, if_neg hPlain]
    simp only [List.cons_append, List.append_assoc, List.nil_append]
    rw [lexemes, if_pos rfl, lexemes_escape_append, lexemes, if_pos rfl]
    simp [Function.comp_def]

theorem words_quotedLexemes_append (cs word : List Char) (ls : List Lexeme) :
    words (some word) (quotedLexemes cs ++ ls) = words (some (word ++ cs)) ls := by
  induction cs generalizing word with
  | nil => simp [quotedLexemes]
  | cons c cs ih =>
      unfold quotedLexemes at *
      by_cases hc : c = '\''
      · simp [words, Lexeme.text?, hc, ih]
      · simp [words, Lexeme.text?, hc, ih]

theorem words_plain_append (cs word : List Char) (ls : List Lexeme) :
    words (some word) (cs.map .plain ++ ls) = words (some (word ++ cs)) ls := by
  induction cs generalizing word with
  | nil => simp
  | cons c cs ih => simp [words, Lexeme.text?, ih]

/-- The parts of a word make up that word and begin no other, even if it is empty. -/
theorem words_wordLexemes_append (cs : List Char) (ls : List Lexeme) :
    words none (wordLexemes cs ++ ls) = words (some cs) ls := by
  unfold wordLexemes
  by_cases hPlain : isPlain cs = true
  · cases cs with
    | nil => exact absurd rfl (isPlain_iff.mp hPlain).1
    | cons c cs =>
        simp [hPlain, words, Lexeme.text?, words_plain_append]
  · simp [hPlain, words, Lexeme.text?, words_quotedLexemes_append]

theorem inert_of_mem_wordLexemes {cs : List Char} {l : Lexeme} (h : l ∈ wordLexemes cs) :
    l.Inert ∧ l.isBlank = false := by
  unfold wordLexemes at h
  split at h
  · rename_i hPlain
    obtain ⟨c, hc, rfl⟩ := List.mem_map.mp h
    exact ⟨inert_plain_of_isHarmless ((isPlain_iff.mp hPlain).2 c hc), rfl⟩
  · simp only [List.cons_append, List.mem_cons, List.mem_append, List.not_mem_nil, or_false] at h
    rcases h with rfl | h | rfl
    · exact ⟨trivial, rfl⟩
    · obtain ⟨c, -, hl⟩ := List.mem_flatMap.mp h
      split at hl
      · rename_i hc
        simp only [List.mem_cons, List.not_mem_nil, or_false] at hl
        rcases hl with rfl | rfl | rfl
        · exact ⟨trivial, rfl⟩
        · exact ⟨hc, rfl⟩
        · exact ⟨trivial, rfl⟩
      · rw [List.mem_singleton.mp hl]
        exact ⟨trivial, rfl⟩
    · exact ⟨trivial, rfl⟩

/-! ## The parts of a written line -/

def lineLexemes (args : List (List Char)) : List Lexeme :=
  [Lexeme.blank ' '].intercalate (args.map wordLexemes)

theorem toList_line (args : List String) :
    (line args).toList = [' '].intercalate ((args.map String.toList).map wordChars) := by
  rw [line, String.toList_intercalate, List.map_map, List.map_map]
  refine congrArg _ (List.map_congr_left fun arg _ => ?_)
  simp [word]

theorem lexemes_line (args : List (List Char)) :
    lexemes .bare ([' '].intercalate (args.map wordChars)) = some (lineLexemes args) := by
  induction args with
  | nil => rfl
  | cons arg args ih =>
      have hWord := lexemes_wordChars_append arg
      cases args with
      | nil => simpa [lineLexemes, lexemes] using hWord []
      | cons next args =>
          simp only [List.map_cons, lineLexemes, List.intercalate_cons_cons] at ih ⊢
          rw [List.append_assoc, hWord, List.singleton_append, lexemes, if_neg (by decide),
            if_neg (by decide), if_pos (by decide), ih]
          simp

theorem words_lineLexemes (args : List (List Char)) : words none (lineLexemes args) = args := by
  induction args with
  | nil => rfl
  | cons arg args ih =>
      have hWord := words_wordLexemes_append arg
      cases args with
      | nil => simpa [lineLexemes, words] using hWord []
      | cons next args =>
          simp only [List.map_cons, lineLexemes, List.intercalate_cons_cons] at ih ⊢
          rw [List.append_assoc, hWord, List.singleton_append, words]
          simp only [Lexeme.text?, ih, Option.toList_some, List.singleton_append]

theorem inert_of_mem_lineLexemes {args : List (List Char)} {l : Lexeme} (h : l ∈ lineLexemes args) :
    l.Inert := by
  rcases Text.mem_intercalate h with hBlank | ⟨part, hPart, hl⟩
  · rw [List.mem_singleton.mp hBlank]
    rfl
  · obtain ⟨arg, -, rfl⟩ := List.mem_map.mp hPart
    exact (inert_of_mem_wordLexemes hl).1

theorem countP_isBlank_lineLexemes (args : List (List Char)) :
    (lineLexemes args).countP Lexeme.isBlank = args.length - 1 := by
  have hWord : ∀ arg, (wordLexemes arg).countP Lexeme.isBlank = 0 := fun arg =>
    List.countP_eq_zero.mpr fun l hl => by simp [(inert_of_mem_wordLexemes hl).2]
  induction args with
  | nil => rfl
  | cons arg args ih =>
      cases args with
      | nil => simp [lineLexemes, hWord]
      | cons next args =>
          simp only [lineLexemes, List.map_cons, List.intercalate_cons_cons, List.countP_append,
            hWord, List.length_cons] at ih ⊢
          rw [ih]
          simp [Lexeme.isBlank, Lexeme.text?, Nat.add_comm]

/-- A shell splits a command line into the arguments it was written from, and outside its quotes
there are only the blanks between words, harmless characters and escaped single quotes. -/
theorem split_line (args : List String) :
    split (line args) = some args ∧
    (∃ ls, lexemes .bare (line args).toList = some ls ∧
      ls.flatMap Lexeme.source = (line args).toList ∧
      (∀ l ∈ ls, l.Inert) ∧ ls.countP Lexeme.isBlank = args.length - 1) ∧
    ∀ j : Job Float, split j.commandLine = some j.args := by
  have hSplit : ∀ args, split (line args) = some args := by
    intro args
    rw [split, toList_line, lexemes_line, Option.map_some, words_lineLexemes, List.map_map]
    simp [Function.comp_def]
  have hLexemes : lexemes .bare (line args).toList = some (lineLexemes (args.map String.toList)) := by
    rw [toList_line, lexemes_line]
  refine ⟨hSplit args, ⟨_, hLexemes, flatMap_source_of_lexemes hLexemes,
    fun l hl => inert_of_mem_lineLexemes hl, ?_⟩, fun j => hSplit j.args⟩
  rw [countP_isBlank_lineLexemes, List.length_map]

end Diaporama.Shell
