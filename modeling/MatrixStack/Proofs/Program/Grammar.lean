/-
The grammar of a stack declaration.

A declaration is cut into values, comments and blanks, each of them the longest text that can stand
in its place; the blanks are dropped, and what is left must be values and then at most one comment.
`Tokens.read?` follows no grammar, but it gives the values that every parser for this one gives
(`tokensBy_eq_read?`): a lexeme is determined by the place where it begins (`longest_iff`), and for
each terminal the tokens after a lexeme determine those before it (`read?_cons`).
-/
import MatrixStack.Proofs.Program.Words

namespace MatrixStack
namespace Tokens

open Text (isBlank StartsIn)

/-! ## Terminals -/

inductive Terminal where
  | value
  | comment
  | blanks
  deriving DecidableEq

namespace Terminal

/-- What a text of the terminal starts with. -/
def starts : Terminal → Char → Bool
  | value, c => !isBlank c && c ≠ '#'
  | comment, c => c = '#'
  | blanks, c => isBlank c

/-- What it goes on with. -/
def goesOn : Terminal → Char → Bool
  | value, c => !isBlank c && c ≠ '#'
  | comment, c => c ≠ '\n'
  | blanks, c => isBlank c

/-- The texts `[^\s#]+`, `#.*` and `\s+`. -/
def Matches (t : Terminal) : List Char → Prop
  | [] => False
  | c :: rest => t.starts c = true ∧ ∀ d ∈ rest, t.goesOn d = true

variable {text : List Char}

/-- Texts that start with what they go on with. -/
theorem matches_iff_of_starts_eq {t : Terminal} (h : t.starts = t.goesOn) :
    t.Matches text ↔ text ≠ [] ∧ ∀ c ∈ text, t.goesOn c = true := by
  cases text with
  | nil => exact ⟨False.elim, fun hall => hall.1 rfl⟩
  | cons c rest =>
    rw [Matches, h, List.forall_mem_cons]
    exact ⟨fun hall => ⟨List.cons_ne_nil c rest, hall⟩, And.right⟩

theorem goesOn_value_iff {c : Char} :
    value.goesOn c = true ↔ isBlank c = false ∧ c ≠ '#' := by
  simp [goesOn]

theorem matches_value_iff : value.Matches text ↔ IsWord text ∧ '#' ∉ text := by
  rw [matches_iff_of_starts_eq rfl, IsWord, and_assoc]
  refine and_congr_right fun _ => ⟨fun h => ⟨fun c hc => ?_, fun hc => ?_⟩, fun h c hc => ?_⟩
  · exact (goesOn_value_iff.mp (h c hc)).1
  · exact (goesOn_value_iff.mp (h '#' hc)).2 rfl
  · exact goesOn_value_iff.mpr ⟨h.1 c hc, fun e => h.2 (e ▸ hc)⟩

theorem matches_comment_iff :
    comment.Matches text ↔ ∃ rest, text = '#' :: rest ∧ '\n' ∉ rest := by
  cases text with
  | nil => exact ⟨False.elim, fun ⟨rest, h, _⟩ => nomatch h⟩
  | cons c rest =>
    constructor
    · rintro ⟨hc, hrest⟩
      obtain rfl : c = '#' := of_decide_eq_true hc
      exact ⟨rest, rfl, fun hmem => absurd (hrest '\n' hmem) (by decide)⟩
    · rintro ⟨rest', h, hrest⟩
      cases h
      exact ⟨rfl, ne_of_not_mem hrest⟩

theorem matches_blanks_iff : blanks.Matches text ↔ IsGap text := matches_iff_of_starts_eq rfl

/-- The terminal of the texts that start with a character. -/
def of (c : Char) : Terminal := if isBlank c then blanks else if c = '#' then comment else value

theorem starts_of (c : Char) : (of c).starts c = true := by
  unfold of
  split
  case isTrue hblank => exact hblank
  case isFalse hblank =>
    split
    case isTrue hsign => exact decide_eq_true hsign
    case isFalse hsign => simp [starts, hblank, hsign]

theorem starts_iff {t : Terminal} {c : Char} : t.starts c = true ↔ t = of c := by
  constructor
  · intro h
    cases t with
    | value =>
      obtain ⟨hblank, hsign⟩ : isBlank c = false ∧ c ≠ '#' := by simpa [starts] using h
      rw [of, hblank, if_neg Bool.false_ne_true, if_neg hsign]
    | comment =>
      obtain rfl : c = '#' := of_decide_eq_true h
      rfl
    | blanks => exact (if_pos h).symm
  · rintro rfl
    exact starts_of c

end Terminal

/-! ## Lexemes -/

structure Lexeme where
  terminal : Terminal
  text : List Char
  deriving DecidableEq

/-- The lexeme stands at the beginning of a text, and no text of any terminal that stands there is
longer. -/
structure Longest (l : Lexeme) (input : List Char) : Prop where
  fits : l.terminal.Matches l.text
  stands : l.text <+: input
  longest : ∀ (t : Terminal) (text : List Char), t.Matches text → text <+: input →
    text.length ≤ l.text.length

/-- The lexeme that starts with a character. -/
def first (c : Char) (cs : List Char) : Lexeme :=
  ⟨.of c, c :: cs.takeWhile (Terminal.of c).goesOn⟩

variable {c : Char} {cs : List Char}

theorem first_append_dropWhile (c : Char) (cs : List Char) :
    (first c cs).text ++ cs.dropWhile (Terminal.of c).goesOn = c :: cs :=
  congrArg (c :: ·) List.takeWhile_append_dropWhile

theorem prefix_first {t : Terminal} {text : List Char} (h : t.Matches text)
    (hstands : text <+: c :: cs) : t = .of c ∧ text <+: (first c cs).text := by
  cases text with
  | nil => exact h.elim
  | cons d rest =>
    obtain ⟨rfl, tail, rfl⟩ := List.cons_prefix_cons.mp hstands
    obtain rfl : t = .of d := Terminal.starts_iff.mp h.1
    refine ⟨rfl, List.cons_prefix_cons.mpr ⟨rfl, ?_⟩⟩
    rw [List.takeWhile_append_of_pos h.2]
    exact List.prefix_append rest _

theorem longest_first (c : Char) (cs : List Char) : Longest (first c cs) (c :: cs) where
  fits := ⟨Terminal.starts_of c, fun _ hd => List.mem_takeWhile_imp hd⟩
  stands := List.cons_prefix_cons.mpr ⟨rfl, List.takeWhile_prefix _⟩
  longest _ _ h hstands := (prefix_first h hstands).2.length_le

theorem matches_first (c : Char) (cs : List Char) : (Terminal.of c).Matches (first c cs).text :=
  (longest_first c cs).fits

theorem longest_iff {l : Lexeme} : Longest l (c :: cs) ↔ l = first c cs := by
  constructor
  · intro h
    obtain ⟨hterminal, hprefix⟩ := prefix_first h.fits h.stands
    have hfirst := longest_first c cs
    have htext := hprefix.eq_of_length_le (h.longest _ _ hfirst.fits hfirst.stands)
    cases l
    exact Lexeme.mk.injEq .. ▸ ⟨hterminal, htext⟩
  · rintro rfl
    exact longest_first c cs

/-- The text is cut into lexemes, each the longest in its place. -/
inductive Lexes : List Char → List Lexeme → Prop
  | nil : Lexes [] []
  | cons {l : Lexeme} {rest : List Char} {ls : List Lexeme} (hl : Longest l (l.text ++ rest))
      (hrest : Lexes rest ls) : Lexes (l.text ++ rest) (l :: ls)

/-- The lexemes of a text. -/
def lex : List Char → List Lexeme
  | [] => []
  | c :: cs => first c cs :: lex (cs.dropWhile (Terminal.of c).goesOn)
termination_by cs => cs.length
decreasing_by exact Nat.lt_succ_of_le (List.dropWhile_sublist _).length_le

theorem lexes_lex (cs : List Char) : Lexes cs (lex cs) := by
  fun_induction lex cs with
  | case1 => exact .nil
  | case2 c cs ih =>
    have hlexes := @Lexes.cons (first c cs) (cs.dropWhile (Terminal.of c).goesOn) _
      (first_append_dropWhile c cs ▸ longest_first c cs) ih
    rwa [first_append_dropWhile] at hlexes

theorem Lexes.eq_lex {ls : List Lexeme} (h : Lexes cs ls) : ls = lex cs := by
  induction h with
  | nil => exact lex.eq_1.symm
  | @cons l rest ls hl _ ih =>
    cases htext : l.text with
    | nil => exact absurd hl.fits (htext ▸ id)
    | cons c text =>
      rw [htext, List.cons_append] at hl
      have hfirst := longest_iff.mp hl
      have hcut := first_append_dropWhile c (text ++ rest)
      rw [← hfirst, htext, List.cons_append, List.cons.injEq] at hcut
      rw [List.cons_append, lex, ← hfirst, List.append_cancel_left hcut.2, ih]

/-! ## The grammar -/

/-- Any number of values, and at most one comment after them. -/
def Sentence (ts : List Terminal) : Prop :=
  ∃ n, ts = List.replicate n .value ∨ ts = List.replicate n .value ++ [.comment]

def accepts : List Terminal → Bool
  | [] => true
  | .value :: ts => accepts ts
  | .comment :: ts => ts.isEmpty
  | .blanks :: _ => false

theorem accepts_replicate_append (n : Nat) (tail : List Terminal) :
    accepts (List.replicate n .value ++ tail) = accepts tail := by
  induction n with
  | zero => rfl
  | succ n ih => exact ih

theorem accepts_iff {ts : List Terminal} : accepts ts = true ↔ Sentence ts := by
  constructor
  · intro h
    fun_induction accepts ts with
    | case1 => exact ⟨0, .inl rfl⟩
    | case2 ts ih =>
      obtain ⟨n, hvalues | hcomment⟩ := ih h
      · exact ⟨n + 1, .inl (congrArg (Terminal.value :: ·) hvalues)⟩
      · exact ⟨n + 1, .inr (congrArg (Terminal.value :: ·) hcomment)⟩
    | case3 ts =>
      obtain rfl := List.isEmpty_iff.mp h
      exact ⟨0, .inr rfl⟩
    | case4 => cases h
  · rintro ⟨n, rfl | rfl⟩
    · rw [← List.append_nil (List.replicate n _), accepts_replicate_append]
      rfl
    · rw [accepts_replicate_append]
      rfl

instance (ts : List Terminal) : Decidable (Sentence ts) := decidable_of_iff _ accepts_iff

theorem sentence_value_cons {ts : List Terminal} : Sentence (.value :: ts) ↔ Sentence ts := by
  rw [← accepts_iff, ← accepts_iff, accepts]

theorem sentence_comment_cons {ts : List Terminal} : Sentence (.comment :: ts) ↔ ts = [] := by
  rw [← accepts_iff, accepts, List.isEmpty_iff]

/-- What is left of the lexemes when the blanks are dropped. -/
def leaves (ls : List Lexeme) : List Lexeme := ls.filter (·.terminal ≠ .blanks)

theorem leaves_cons_of_blanks {l : Lexeme} (h : l.terminal = .blanks) (ls : List Lexeme) :
    leaves (l :: ls) = leaves ls := List.filter_cons_of_neg (by simp [h])

theorem leaves_cons_of_ne {l : Lexeme} (h : l.terminal ≠ .blanks) (ls : List Lexeme) :
    leaves (l :: ls) = l :: leaves ls := List.filter_cons_of_pos (decide_eq_true h)

/-- The parser gives the leaves of a text that the grammar accepts, and otherwise nothing. -/
def Parses (parse : List Char → Option (List Lexeme)) : Prop :=
  ∀ cs tree, parse cs = some tree ↔
    ∃ ls, Lexes cs ls ∧ tree = leaves ls ∧ Sentence (tree.map Lexeme.terminal)

/-- The texts of the values. -/
def values (tree : List Lexeme) : List String :=
  (tree.filter (·.terminal = .value)).map fun l => String.ofList l.text

/-- The tokens that a parser finds. -/
def tokensBy (parse : List Char → Option (List Lexeme)) (cs : List Char) : Option (List String) :=
  (parse cs).map values

/-! ## Tokens by the grammar -/

theorem startsIn_dropWhile (p : Char → Bool) (cs : List Char) :
    StartsIn (fun d => !p d) (cs.dropWhile p) := by
  intro d hd
  have hnot := List.head?_dropWhile_not p cs
  rw [hd] at hnot
  exact congrArg not hnot

/-- What the first lexeme does to the tokens of the text after it. -/
theorem read?_cons (c : Char) (cs : List Char) :
    let rest := cs.dropWhile (Terminal.of c).goesOn
    read? (c :: cs) = match Terminal.of c with
      | .value => (read? rest).map (String.ofList (first c cs).text :: ·)
      | .comment => if rest.all isBlank then some [] else none
      | .blanks => read? rest := by
  intro rest
  have hcut : (first c cs).text ++ rest = c :: cs := first_append_dropWhile c cs
  have hfits := matches_first c cs
  have hrest : StartsIn (fun d => !(Terminal.of c).goesOn d) rest := startsIn_dropWhile _ cs
  rw [← hcut]
  cases hterminal : Terminal.of c with
  | value =>
    rw [hterminal] at hfits hrest
    obtain ⟨hword, hsign⟩ := Terminal.matches_value_iff.mp hfits
    refine read?_word_append hword hsign fun d hd => ?_
    simpa [Terminal.goesOn, or_iff_not_imp_left] using hrest d hd
  | comment =>
    rw [hterminal] at hfits hrest
    obtain ⟨comment, htext, hline⟩ := Terminal.matches_comment_iff.mp hfits
    rw [htext]
    refine read?_comment hline fun d hd => ?_
    simpa [Terminal.goesOn] using hrest d hd
  | blanks =>
    rw [hterminal] at hfits
    exact read?_blanks_append (Terminal.matches_blanks_iff.mp hfits).2 rest

theorem leaves_lex_eq_nil_iff (cs : List Char) :
    leaves (lex cs) = [] ↔ cs.all isBlank = true := by
  fun_induction lex cs with
  | case1 => exact ⟨fun _ => rfl, fun _ => rfl⟩
  | case2 c cs ih =>
    cases hc : isBlank c with
    | true =>
      have hterminal : Terminal.of c = .blanks := if_pos hc
      have hgap := matches_first c cs
      rw [hterminal, Terminal.matches_blanks_iff] at hgap
      rw [leaves_cons_of_blanks hterminal, ih, ← first_append_dropWhile c cs,
        List.all_append, List.all_eq_true.mpr hgap.2, Bool.true_and]
    | false =>
      have hterminal : Terminal.of c ≠ .blanks := fun e =>
        Bool.false_ne_true (hc.symm.trans (Terminal.starts_iff (t := .blanks).mpr e.symm))
      rw [leaves_cons_of_ne hterminal, List.all_cons, hc]
      exact iff_of_false (List.cons_ne_nil _ _) Bool.false_ne_true

/-- The values of a tree that the grammar accepts. -/
def collect? (tree : List Lexeme) : Option (List String) :=
  if Sentence (tree.map Lexeme.terminal) then some (values tree) else none

theorem collect?_value_cons {l : Lexeme} (h : l.terminal = .value) (tree : List Lexeme) :
    collect? (l :: tree) = (collect? tree).map (String.ofList l.text :: ·) := by
  have hvalues : values (l :: tree) = String.ofList l.text :: values tree := by
    simp [values, h]
  simp only [collect?, List.map_cons, h, sentence_value_cons, hvalues]
  split <;> rfl

theorem collect?_comment_cons {l : Lexeme} (h : l.terminal = .comment) (tree : List Lexeme) :
    collect? (l :: tree) = if tree = [] then some [] else none := by
  simp only [collect?, List.map_cons, h, sentence_comment_cons, List.map_eq_nil_iff]
  split
  case isTrue hnil =>
    subst hnil
    simp [values, h]
  case isFalse => rfl

/-- The tokens are the values of the lexemes, where these are accepted. -/
theorem read?_eq_collect? (cs : List Char) : read? cs = collect? (leaves (lex cs)) := by
  fun_induction lex cs with
  | case1 => decide
  | case2 c cs ih =>
    rw [read?_cons]
    cases hterminal : Terminal.of c with
    | value =>
      rw [hterminal] at ih
      rw [leaves_cons_of_ne (by simp [first, hterminal]), collect?_value_cons hterminal, ← ih]
    | comment =>
      rw [hterminal] at ih
      rw [leaves_cons_of_ne (by simp [first, hterminal]), collect?_comment_cons hterminal]
      simp only [leaves_lex_eq_nil_iff]
    | blanks =>
      rw [hterminal] at ih
      rw [leaves_cons_of_blanks hterminal]
      exact ih

/-- The leaves of a text that the grammar accepts. -/
def parse? (cs : List Char) : Option (List Lexeme) :=
  let tree := leaves (lex cs)
  if Sentence (tree.map Lexeme.terminal) then some tree else none

theorem parses_parse? : Parses parse? := by
  intro cs tree
  rw [parse?, Option.ite_none_right_eq_some]
  constructor
  · rintro ⟨hsentence, htree⟩
    cases htree
    exact ⟨lex cs, lexes_lex cs, rfl, hsentence⟩
  · rintro ⟨ls, hls, rfl, hsentence⟩
    obtain rfl := hls.eq_lex
    exact ⟨hsentence, rfl⟩

/-- The grammar leaves a parser no choice. -/
theorem Parses.eq {parse parse' : List Char → Option (List Lexeme)} (h : Parses parse)
    (h' : Parses parse') : parse = parse' :=
  funext fun cs => Option.ext fun tree => (h cs tree).trans (h' cs tree).symm

theorem tokensBy_eq_read? {parse : List Char → Option (List Lexeme)} (h : Parses parse)
    (cs : List Char) : tokensBy parse cs = read? cs := by
  rw [h.eq parses_parse?, tokensBy, parse?, read?_eq_collect?, collect?]
  split <;> rfl

/-- A parser for the grammar finds the runs before the comment, and refuses a text exactly where
something follows the comment. -/
theorem tokens_of_grammar {parse : List Char → Option (List Lexeme)} (h : Parses parse)
    (body : List Char) :
    tokensBy parse body = read? body ∧
      (tokensBy parse body = none ↔ TextAfterComment body) ∧
      (∀ ts, tokensBy parse body = some ts →
        Runs (beforeComment body) (ts.map String.toList) ∧
        (∀ t ∈ ts, IsWord t.toList ∧ '#' ∉ t.toList) ∧
        ∀ gap comment, (∀ n, IsGap (gap n)) → '\n' ∉ comment →
          tokensBy parse (joinWith gap (ts.map String.toList) ++ '#' :: comment) = some ts) ∧
      ('\n' ∉ body →
        tokensBy parse body = some ((words (beforeComment body)).map String.ofList)) := by
  refine ⟨tokensBy_eq_read? h body, ?_⟩
  simp only [tokensBy_eq_read? h]
  refine ⟨read?_eq_none_iff, fun ts hts => ⟨runs_iff.mpr (words_of_read? hts), ?_, ?_⟩,
    read?_of_no_newline⟩
  · exact isWord_of_read? hts
  · intro gap comment hgap hcomment
    exact read?_joinWith hgap (isWord_of_read? hts) hcomment

/-- Tokens before a comment, the same tokens on lines of their own, and a text with something after
its comment. -/
theorem tokens_of_grammar_at_a_comment :
    let ts := ["0", "0", "5"]
    tokensBy parse? [' ', '0', '\t', '0', ' ', '5', '#', '1', '0'] = some ts ∧
      tokensBy parse? (joinWith (fun _ => ['\n']) (ts.map String.toList) ++ ['#', ' ', 'x']) =
        some ts ∧
      tokensBy parse? ['1', ' ', '#', 'a', '\n', '2'] = none := by
  intro ts
  obtain ⟨hread, -, hall, -⟩ :=
    tokens_of_grammar parses_parse? [' ', '0', '\t', '0', ' ', '5', '#', '1', '0']
  have hts := hread.trans (show _ = some ts by decide)
  obtain ⟨-, -, hjoin⟩ := hall ts hts
  have hgap : IsGap ['\n'] := ⟨by decide, fun _ hc => List.eq_of_mem_singleton hc ▸ rfl⟩
  refine ⟨hts, hjoin (fun _ => ['\n']) [' ', 'x'] (fun _ => hgap) (by decide), ?_⟩
  refine (tokens_of_grammar parses_parse? _).2.1.mpr ?_
  exact ⟨['1', ' '], ['a'], ['2'], rfl, by decide, by decide, '2', by decide, by decide⟩

end Tokens
end MatrixStack
