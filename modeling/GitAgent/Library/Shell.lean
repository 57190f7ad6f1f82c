import GitAgent.Library.Decimal
import Mathlib.Data.List.Forall2
import Mathlib.Data.List.Lemmas

/-!
# Commands of a shell

How a POSIX shell reads a command, as far as nothing is expanded in it: the text is cut into words and
operators, quotes are taken off, and lists, pipelines, conditionals and groups are parsed. A text with
an expansion, a pattern or an escape is refused. A template is a text with holes. Its reading does not
depend on what is put into the holes, as long as it is quoted: the words get it as it is.
-/

universe u v

namespace Shell

/-! ### Words and operators -/

/-- How a word is spelled: with these characters and no quotes, with quotes, or in a way that is not
known yet. -/
inductive Spelling
  | bare (cs : List Char)
  | quoted
  | unknown
  deriving DecidableEq, Repr

def Spelling.push : Spelling → Char → Spelling
  | .bare cs, c => .bare (cs ++ [c])
  | s, _ => s

def Spelling.quote : Spelling → Spelling
  | .bare _ => .quoted
  | s => s

/-- A token, with what the words are made of. -/
inductive Token (α : Type u)
  | word (text : List α) (spelling : Spelling)
  | descriptor (n : List Char)
  | and
  | or
  | pipe
  | semi
  | great
  | greatAnd
  deriving DecidableEq, Repr

/-- Where the reader is. -/
inductive Mode (α : Type u)
  | gap
  | word (text : List α) (spelling : Spelling)
  | single (text : List α) (spelling : Spelling)
  | double (text : List α) (spelling : Spelling)
  | bracket
  | operator (c : Char)
  deriving DecidableEq, Repr

/-- What a character is to the reader, outside of quotes. -/
inductive Kind
  | blank
  | single
  | double
  | semi
  | operator
  | bracket
  | refused
  | plain
  deriving DecidableEq, Repr

/-- The characters that start an expansion, a pattern, an escape or a comment, or that are not of a
word and not read here. -/
def refused : List Char :=
  ['\x00', '\n', '$', (Char.ofNat 96), '\\', '*', '?', '#', '~', '<', '(', ')']

def kind (c : Char) : Kind :=
  if c = ' ' ∨ c = '\t' then .blank
  else if c = '\'' then .single
  else if c = '"' then .double
  else if c = ';' then .semi
  else if c = '&' ∨ c = '|' ∨ c = '>' then .operator
  else if c = '[' then .bracket
  else if c ∈ refused then .refused
  else .plain

variable {α : Type u} {β : Type v}

/-- The token that ends before an operator: before a redirection it is its descriptor, if it is a
number. -/
def endWord (text : List α) (s : Spelling) (c : Char) : Option (Token α) :=
  if c = '>' then
    match s with
    | .bare cs => some (if cs.all Char.isDigit then .descriptor cs else .word text s)
    | .quoted => some (.word text s)
    | .unknown => none
  else some (.word text s)

/-- A character between two words. -/
def stepGap (lit : Char → α) (c : Char) : Option (List (Token α) × Mode α) :=
  match kind c with
  | .blank => some ([], .gap)
  | .single => some ([], .single [] .quoted)
  | .double => some ([], .double [] .quoted)
  | .semi => some ([.semi], .gap)
  | .operator => some ([], .operator c)
  | .bracket => some ([], .bracket)
  | .refused => none
  | .plain => some ([], .word [lit c] (.bare [c]))

/-- A character in a word. -/
def stepWord (lit : Char → α) (text : List α) (s : Spelling) (c : Char) :
    Option (List (Token α) × Mode α) :=
  match kind c with
  | .blank => some ([.word text s], .gap)
  | .single => some ([], .single text s.quote)
  | .double => some ([], .double text s.quote)
  | .semi => some ([.word text s, .semi], .gap)
  | .operator => (endWord text s c).map fun t => ([t], .operator c)
  | .bracket | .refused => none
  | .plain => some ([], .word (text ++ [lit c]) (s.push c))

/-- A character after the first one of an operator. -/
def stepOperator (lit : Char → α) (first c : Char) : Option (List (Token α) × Mode α) :=
  if first = '&' then
    if c = '&' then some ([.and], .gap) else none
  else if first = '|' then
    if c = '|' then some ([.or], .gap)
    else (stepGap lit c).map fun p => (.pipe :: p.1, p.2)
  else if c = '&' then some ([.greatAnd], .gap)
  else if c = '>' ∨ c = '|' then none
  else (stepGap lit c).map fun p => (.great :: p.1, p.2)

/-- What a character does to the reader: the tokens that end with it, and where the reader is then. -/
def step (lit : Char → α) : Mode α → Char → Option (List (Token α) × Mode α)
  | .gap, c => stepGap lit c
  | .word text s, c => stepWord lit text s c
  | .single text s, c =>
      if c = '\'' then some ([], .word text s)
      else if c = '\x00' then none
      else some ([], .single (text ++ [lit c]) s)
  | .double text s, c =>
      if c = '"' then some ([], .word text s)
      else if c ∈ ['\x00', '$', (Char.ofNat 96), '\\'] then none
      else some ([], .double (text ++ [lit c]) s)
  | .bracket, c => if kind c = .blank then some ([.word [lit '['] (.bare ['['])], .gap) else none
  | .operator first, c => stepOperator lit first c

/-- The tokens at the end of the text. -/
def finish : Mode α → Option (List (Token α))
  | .gap => some []
  | .word text s => some [.word text s]
  | _ => none

/-- What a text does to the reader. -/
def scan (lit : Char → α) : Mode α → List Char → Option (List (Token α) × Mode α)
  | m, [] => some ([], m)
  | m, c :: cs =>
      (step lit m c).bind fun p => (scan lit p.2 cs).map fun q => (p.1 ++ q.1, q.2)

/-- The tokens of a text. -/
def tokens (cs : List Char) : Option (List (Token Char)) :=
  (scan id .gap cs).bind fun p => (finish p.2).map fun ts => p.1 ++ ts

/-! ### Commands -/

/-- Where an output goes. -/
inductive Target (α : Type u)
  | file (text : List α)
  | descriptor (text : List α)
  deriving DecidableEq, Repr

/-- A redirection of a descriptor, of the standard output if none is named. -/
abbrev Redirect (α : Type u) := Option (List Char) × Target α

/-- A command. -/
inductive Command (α : Type u)
  | simple (words : List (List α)) (redirects : List (Redirect α))
  | pipe (c d : Command α)
  | and (c d : Command α)
  | or (c d : Command α)
  | seq (c d : Command α)
  | group (c : Command α)
  | cond (c d e : Command α)
  deriving DecidableEq, Repr

/-- The reserved words that are read. -/
inductive Reserved
  | if
  | then
  | else
  | fi
  | opening
  | closing
  deriving DecidableEq, Repr

/-- The reserved words of the shell that are not read, so that a command may not start with them. -/
def unread : List (List Char) :=
  ["!", "case", "do", "done", "elif", "esac", "for", "in", "until", "while"].map String.toList

/-- What the first word of a command is: a reserved word, or the name of a command, which is no
assignment. -/
def first? : Spelling → Option (Option Reserved)
  | .bare cs =>
      if cs = "if".toList then some (some .if)
      else if cs = "then".toList then some (some .then)
      else if cs = "else".toList then some (some .else)
      else if cs = "fi".toList then some (some .fi)
      else if cs = "\x7b".toList then some (some .opening)
      else if cs = "\x7d".toList then some (some .closing)
      else if cs ∈ unread ∨ '=' ∈ cs then none
      else some none
  | .quoted => some none
  | .unknown => none

/-- The words and the redirections of a simple command. -/
def parseSimple (words : List (List α)) (redirects : List (Redirect α)) :
    List (Token α) → Command α × List (Token α)
  | .word w _ :: ts => parseSimple (words ++ [w]) redirects ts
  | .great :: .word w _ :: ts => parseSimple words (redirects ++ [(none, .file w)]) ts
  | .descriptor n :: .great :: .word w _ :: ts =>
      parseSimple words (redirects ++ [(some n, .file w)]) ts
  | .greatAnd :: .word w _ :: ts => parseSimple words (redirects ++ [(none, .descriptor w)]) ts
  | .descriptor n :: .greatAnd :: .word w _ :: ts =>
      parseSimple words (redirects ++ [(some n, .descriptor w)]) ts
  | ts => (.simple words redirects, ts)

/-- What is parsed: a whole list, an and-or list, a pipeline or a command, or the rest of one of the
first three. -/
inductive Goal (α : Type u)
  | list
  | items (c : Command α)
  | andOr
  | operands (c : Command α)
  | pipeline
  | pipes (c : Command α)
  | command

/-- Takes a reserved word off the tokens. -/
def expect (r : Reserved) : List (Token α) → Option (List (Token α))
  | .word _ s :: ts => if first? s = some (some r) then some ts else none
  | _ => none

/-- Whether a list of commands ends here: with the text, or before a reserved word that closes it. -/
def closes : List (Token α) → Option Bool
  | [] => some true
  | .word _ s :: _ =>
      (first? s).map fun r => r ∈ [some .then, some .else, some .fi, some .closing]
  | _ => some false

/-- A command and the tokens after it. -/
abbrev Parsed (α : Type u) := Option (Command α × List (Token α))

def Parsed.andThen (r : Parsed α) (k : Command α → List (Token α) → Parsed α) : Parsed α :=
  r.bind fun p => k p.1 p.2

/-- Parses a goal, if the fuel is enough. -/
def parseGoal : ℕ → Goal α → List (Token α) → Parsed α
  | 0, _, _ => none
  | n + 1, .list, ts => (parseGoal n .andOr ts).andThen fun c => parseGoal n (.items c)
  | n + 1, .andOr, ts => (parseGoal n .pipeline ts).andThen fun c => parseGoal n (.operands c)
  | n + 1, .pipeline, ts => (parseGoal n .command ts).andThen fun c => parseGoal n (.pipes c)
  | n + 1, .items c, .semi :: ts =>
      (closes ts).bind fun closed =>
        if closed then some (c, ts)
        else (parseGoal n .andOr ts).andThen fun d => parseGoal n (.items (.seq c d))
  | n + 1, .operands c, .and :: ts =>
      (parseGoal n .pipeline ts).andThen fun d => parseGoal n (.operands (.and c d))
  | n + 1, .operands c, .or :: ts =>
      (parseGoal n .pipeline ts).andThen fun d => parseGoal n (.operands (.or c d))
  | n + 1, .pipes c, .pipe :: ts =>
      (parseGoal n .command ts).andThen fun d => parseGoal n (.pipes (.pipe c d))
  | _ + 1, .items c, ts | _ + 1, .operands c, ts | _ + 1, .pipes c, ts => some (c, ts)
  | n + 1, .command, .word w s :: ts =>
      (first? s).bind fun
      | none => some (parseSimple [w] [] ts)
      | some .if =>
          (parseGoal n .list ts).andThen fun c ts => (expect .then ts).bind fun ts =>
            (parseGoal n .list ts).andThen fun d ts => (expect .else ts).bind fun ts =>
              (parseGoal n .list ts).andThen fun e ts =>
                (expect .fi ts).bind fun ts => some (.cond c d e, ts)
      | some .opening =>
          (parseGoal n .list ts).andThen fun c ts =>
            (expect .closing ts).bind fun ts => some (.group c, ts)
      | some _ => none
  | _ + 1, .command, _ => none

/-- The command of a list of tokens, all of which it takes. -/
def parseTokens (ts : List (Token α)) : Option (Command α) :=
  match parseGoal (8 * (ts.length + 1)) .list ts with
  | some (c, []) => some c
  | _ => none

/-- The command that a shell reads in a text. -/
def parse (s : String) : Option (Command Char) :=
  (tokens s.toList).bind parseTokens

/-! ### Quoting -/

/-- The characters that need no quotes. -/
def isSafe (c : Char) : Bool :=
  c.isAlphanum || c ∈ ['_', '@', '%', '+', '=', ':', ',', '.', '/', '-']

/-- What is written for a character between single quotes: these are closed for a single quote, which
stands between double quotes. -/
def escape (c : Char) : List Char :=
  if c = '\'' then ['\'', '"', '\'', '"', '\''] else [c]

/-- A text as one word. -/
def quote (cs : List Char) : List Char :=
  if cs = [] then ['\'', '\'']
  else if cs.all isSafe then cs
  else '\'' :: (cs.flatMap escape ++ ['\''])

theorem kind_of_isSafe {c : Char} (h : isSafe c = true) :
  kind c = .plain
  := by
  have hne : ∀ d, isSafe d = false → c ≠ d := by
    rintro d hd rfl
    rw [hd] at h
    contradiction
  have hrefused : c ∉ refused := by
    intro hc
    have hall : refused.all (fun d => !isSafe d) = true := by decide
    have hsafe := List.all_eq_true.mp hall c hc
    rw [h] at hsafe
    contradiction
  simp [kind, hne _ (show isSafe ' ' = false by decide), hne _ (show isSafe '\t' = false by decide),
    hne _ (show isSafe '\'' = false by decide), hne _ (show isSafe '"' = false by decide),
    hne _ (show isSafe ';' = false by decide), hne _ (show isSafe '&' = false by decide),
    hne _ (show isSafe '|' = false by decide), hne _ (show isSafe '>' = false by decide),
    hne _ (show isSafe '[' = false by decide), hrefused]

section

variable {lit : Char → α} {text : List α} {s : Spelling}

/-- A step without a token. -/
theorem scan_cons {m n : Mode α} {c : Char} (cs : List Char) (h : step lit m c = some ([], n)) :
  scan lit m (c :: cs) = scan lit n cs
  := by
  rw [scan, h, Option.bind_some]
  cases scan lit n cs <;> rfl

theorem scan_safe {a : List Char} (h : a.all isSafe = true) (cs : List Char) :
  ∃ s', scan lit (.word text s) (a ++ cs) = scan lit (.word (text ++ a.map lit) s') cs
  := by
  induction a generalizing text s with
  | nil => exact ⟨s, by rw [List.nil_append, List.map_nil, List.append_nil]⟩
  | cons c a ih =>
      rw [List.all_cons, Bool.and_eq_true] at h
      obtain ⟨s', hs⟩ := @ih (text ++ [lit c]) (s.push c) h.2
      use s'
      rw [List.cons_append, scan_cons, hs, List.map_cons, List.append_assoc, List.singleton_append]
      rw [step, stepWord, kind_of_isSafe h.1]

/-- What stands between single quotes is taken as it is. -/
theorem scan_escape {a : List Char} (h : '\x00' ∉ a) (hs : s.quote = s) (cs : List Char) :
  scan lit (.single text s) (a.flatMap escape ++ cs) = scan lit (.single (text ++ a.map lit) s) cs
  := by
  induction a generalizing text with
  | nil => rw [List.flatMap_nil, List.nil_append, List.map_nil, List.append_nil]
  | cons c a ih =>
      rw [List.mem_cons, not_or] at h
      have hrest := @ih (text ++ [lit c]) h.2
      rw [List.append_assoc, List.singleton_append] at hrest
      rw [List.flatMap_cons, List.append_assoc, List.map_cons, ← hrest]
      by_cases hq : c = '\''
      · subst hq
        change scan lit _ ('\'' :: '"' :: '\'' :: '"' :: '\'' :: _) = _
        rw [scan_cons (n := .word text s) _ rfl, scan_cons (n := .double text s) _ (by
            rw [step, stepWord, hs]; rfl),
          scan_cons (n := .double (text ++ [lit '\'']) s) _ rfl,
          scan_cons (n := .word (text ++ [lit '\'']) s) _ rfl]
        apply scan_cons
        rw [step, stepWord, hs]
        rfl
      · rw [escape, if_neg hq, List.singleton_append]
        apply scan_cons
        rw [step, if_neg hq, if_neg (Ne.symm h.1)]

theorem Spelling.quote_quote (s : Spelling) :
  s.quote.quote = s.quote
  := by cases s <;> rfl

/-- A quoted text goes to the word that the reader is in. -/
theorem scan_quote_word {a : List Char} (h : '\x00' ∉ a) (cs : List Char) :
  ∃ s', scan lit (.word text s) (quote a ++ cs) = scan lit (.word (text ++ a.map lit) s') cs
  := by
  rw [quote]
  split
  · rename_i ha
    subst ha
    use s.quote
    rw [List.map_nil, List.append_nil]
    change scan lit _ ('\'' :: '\'' :: cs) = _
    rw [scan_cons (n := .single text s.quote) _ rfl]
    apply scan_cons
    rfl
  · split
    · rename_i hsafe
      apply scan_safe hsafe
    · use s.quote
      rw [List.cons_append, List.append_assoc, scan_cons (n := .single text s.quote) _ rfl,
        scan_escape h s.quote_quote]
      apply scan_cons
      rfl

/-- A quoted text starts a word. -/
theorem scan_quote_gap {a : List Char} (h : '\x00' ∉ a) (cs : List Char) :
  ∃ s', scan lit .gap (quote a ++ cs) = scan lit (.word (a.map lit) s') cs
  := by
  obtain ⟨s', hs⟩ := @scan_quote_word _ lit [] (.bare []) a h cs
  use s'
  rw [List.nil_append] at hs
  rw [← hs]
  have hfirst : ∀ c cs, kind c = .single ∨ kind c = .plain →
      scan lit .gap (c :: cs) = scan lit (.word [] (.bare [])) (c :: cs) := by
    intro c cs hc
    rw [scan, scan]
    congr 1
    rcases hc with hc | hc
    · rw [step, step, stepGap, stepWord, hc]
      rfl
    · rw [step, step, stepGap, stepWord, hc]
      rfl
  rw [quote]
  split
  · apply hfirst
    exact .inl (by decide)
  · rename_i ha
    split
    · rename_i hsafe
      cases a with
      | nil => contradiction
      | cons c a =>
          apply hfirst
          exact .inr (kind_of_isSafe (List.all_eq_true.mp hsafe c (List.mem_cons_self ..)))
    · apply hfirst
      exact .inl (by decide)

end

/-! ### Templates -/

variable {H : Type v}

/-- What a hole does to the reader: it goes to a word, which is then spelled as the text that is put
into it. -/
def stepHole : Mode (Char ⊕ H) → H → Option (Mode (Char ⊕ H))
  | .gap, h => some (.word [.inr h] .unknown)
  | .word text _, h => some (.word (text ++ [.inr h]) .unknown)
  | _, _ => none

/-- What a template does to the reader. -/
def scanTemplate : Mode (Char ⊕ H) → List (Char ⊕ H) →
    Option (List (Token (Char ⊕ H)) × Mode (Char ⊕ H))
  | m, [] => some ([], m)
  | m, .inl c :: ls =>
      (step .inl m c).bind fun p => (scanTemplate p.2 ls).map fun q => (p.1 ++ q.1, q.2)
  | m, .inr h :: ls => (stepHole m h).bind fun m => scanTemplate m ls

/-- The command that a shell reads in a template. -/
def parseTemplate (ls : List (Char ⊕ H)) : Option (Command (Char ⊕ H)) :=
  ((scanTemplate .gap ls).bind fun p => (finish p.2).map fun ts => p.1 ++ ts).bind parseTokens

variable (σ : H → List Char)

/-- A template, with what is put into its holes in quotes. -/
def fill (ls : List (Char ⊕ H)) : List Char :=
  ls.flatMap (Sum.elim (fun c => [c]) fun h => quote (σ h))

/-- A word, with what is put into its holes as it is. -/
def subst (w : List (Char ⊕ H)) : List Char :=
  w.flatMap (Sum.elim (fun c => [c]) σ)

def Target.map (f : List α → List β) : Target α → Target β
  | .file w => .file (f w)
  | .descriptor w => .descriptor (f w)

def Command.map (f : List α → List β) : Command α → Command β
  | .simple words redirects => .simple (words.map f) (redirects.map fun r => (r.1, r.2.map f))
  | .pipe c d => .pipe (c.map f) (d.map f)
  | .and c d => .and (c.map f) (d.map f)
  | .or c d => .or (c.map f) (d.map f)
  | .seq c d => .seq (c.map f) (d.map f)
  | .group c => .group (c.map f)
  | .cond c d e => .cond (c.map f) (d.map f) (e.map f)

/-- A spelling, and what is known of it in a template. -/
def Spelling.Known (s s' : Spelling) : Prop :=
  s = .unknown ∨ s = s'

theorem Spelling.Known.push {s s' : Spelling} (h : s.Known s') (c : Char) :
  (s.push c).Known (s'.push c)
  := by
  rcases h with rfl | rfl
  · exact .inl rfl
  · exact .inr rfl

theorem Spelling.Known.quote {s s' : Spelling} (h : s.Known s') :
  s.quote.Known s'.quote
  := by
  rcases h with rfl | rfl
  · exact .inl rfl
  · exact .inr rfl

/-- A token of a template, and the token that it is after the holes are filled. -/
inductive Token.Filled : Token (Char ⊕ H) → Token Char → Prop
  | word {w : List (Char ⊕ H)} {s s' : Spelling} (h : s.Known s') :
      Filled (.word w s) (.word (subst σ w) s')
  | descriptor (n : List Char) : Filled (.descriptor n) (.descriptor n)
  | and : Filled .and .and
  | or : Filled .or .or
  | pipe : Filled .pipe .pipe
  | semi : Filled .semi .semi
  | great : Filled .great .great
  | greatAnd : Filled .greatAnd .greatAnd

/-- Where the reader of a template is, and where the reader of the text is. -/
inductive Mode.Filled : Mode (Char ⊕ H) → Mode Char → Prop
  | gap : Filled .gap .gap
  | word {w : List (Char ⊕ H)} {s s' : Spelling} (h : s.Known s') :
      Filled (.word w s) (.word (subst σ w) s')
  | single {w : List (Char ⊕ H)} {s s' : Spelling} (h : s.Known s') :
      Filled (.single w s) (.single (subst σ w) s')
  | double {w : List (Char ⊕ H)} {s s' : Spelling} (h : s.Known s') :
      Filled (.double w s) (.double (subst σ w) s')
  | bracket : Filled .bracket .bracket
  | operator (c : Char) : Filled (.operator c) (.operator c)

/-- What comes of a step on a template, and of the step on the text. -/
def Agree (r : Option (List (Token (Char ⊕ H)) × Mode (Char ⊕ H)))
    (r' : Option (List (Token Char) × Mode Char)) : Prop :=
  ∀ ts m, r = some (ts, m) → ∃ ts' m', r' = some (ts', m') ∧
    List.Forall₂ (Token.Filled σ) ts ts' ∧ Mode.Filled σ m m'

variable {σ}

theorem subst_concat (w : List (Char ⊕ H)) (c : Char) :
  subst σ (w ++ [.inl c]) = subst σ w ++ [c]
  := by
  rw [subst, List.flatMap_append, ← subst]
  rfl

theorem subst_concat_hole (w : List (Char ⊕ H)) (h : H) :
  subst σ (w ++ [.inr h]) = subst σ w ++ σ h
  := by
  rw [subst, List.flatMap_append, ← subst, List.flatMap_singleton]
  rfl

theorem agree_none {r' : Option (List (Token Char) × Mode Char)} :
  Agree σ none r'
  := by
  intro ts m h
  contradiction

theorem agree_some {ts : List (Token (Char ⊕ H))} {ts' : List (Token Char)} {m : Mode (Char ⊕ H)}
    {m' : Mode Char} (hts : List.Forall₂ (Token.Filled σ) ts ts') (hm : Mode.Filled σ m m') :
  Agree σ (some (ts, m)) (some (ts', m'))
  := by
  rintro _ _ ⟨⟩
  exact ⟨ts', m', rfl, hts, hm⟩

theorem agree_stepGap (c : Char) :
  Agree σ (stepGap .inl c) (stepGap id c)
  := by
  rw [stepGap, stepGap]
  cases kind c with
  | blank => exact agree_some .nil .gap
  | single => exact agree_some .nil (.single (.inr rfl))
  | double => exact agree_some .nil (.double (.inr rfl))
  | semi => exact agree_some (.cons .semi .nil) .gap
  | operator => exact agree_some .nil (.operator c)
  | bracket => exact agree_some .nil .bracket
  | refused => exact agree_none
  | plain => exact agree_some .nil (.word (.inr rfl))

theorem endWord_filled {w : List (Char ⊕ H)} {s s' : Spelling} (h : s.Known s') (c : Char)
    {t : Token (Char ⊕ H)} (ht : endWord w s c = some t) :
  ∃ t', endWord (subst σ w) s' c = some t' ∧ Token.Filled σ t t'
  := by
  unfold endWord at ht ⊢
  split at ht
  · rename_i hc
    rw [if_pos hc]
    rcases h with rfl | rfl
    · contradiction
    · cases s with
      | bare cs =>
          obtain rfl := Option.some.inj ht
          refine ⟨_, rfl, ?_⟩
          split
          · exact .descriptor cs
          · exact .word (.inr rfl)
      | quoted =>
          obtain rfl := Option.some.inj ht
          exact ⟨_, rfl, .word (.inr rfl)⟩
      | unknown => contradiction
  · rename_i hc
    rw [if_neg hc]
    obtain rfl := Option.some.inj ht
    exact ⟨_, rfl, .word h⟩

theorem agree_stepWord {w : List (Char ⊕ H)} {s s' : Spelling} (h : s.Known s') (c : Char) :
  Agree σ (stepWord .inl w s c) (stepWord id (subst σ w) s' c)
  := by
  rw [stepWord, stepWord]
  cases kind c with
  | blank => exact agree_some (.cons (.word h) .nil) .gap
  | single => exact agree_some .nil (.single h.quote)
  | double => exact agree_some .nil (.double h.quote)
  | semi => exact agree_some (.cons (.word h) (.cons .semi .nil)) .gap
  | operator =>
      intro ts m hr
      obtain ⟨t, ht, ⟨⟩⟩ := Option.map_eq_some_iff.mp hr
      obtain ⟨t', ht', hfilled⟩ := endWord_filled h c ht
      refine ⟨[t'], .operator c, ?_, .cons hfilled .nil, .operator c⟩
      dsimp only
      rw [ht', Option.map_some]
  | bracket => exact agree_none
  | refused => exact agree_none
  | plain =>
      dsimp only
      rw [id, ← subst_concat]
      exact agree_some .nil (.word (h.push c))

theorem agree_cons {t : Token (Char ⊕ H)} {t' : Token Char} (ht : Token.Filled σ t t')
    {r : Option (List (Token (Char ⊕ H)) × Mode (Char ⊕ H))}
    {r' : Option (List (Token Char) × Mode Char)} (h : Agree σ r r') :
  Agree σ (r.map fun p => (t :: p.1, p.2)) (r'.map fun p => (t' :: p.1, p.2))
  := by
  intro ts m hr
  obtain ⟨⟨us, n⟩, hu, ⟨⟩⟩ := Option.map_eq_some_iff.mp hr
  obtain ⟨us', n', rfl, hus, hn⟩ := h us n hu
  exact ⟨t' :: us', n', rfl, .cons ht hus, hn⟩

theorem agree_stepOperator (first c : Char) :
  Agree σ (stepOperator .inl first c) (stepOperator id first c)
  := by
  rw [stepOperator, stepOperator]
  split_ifs
  · exact agree_some (.cons .and .nil) .gap
  · exact agree_none
  · exact agree_some (.cons .or .nil) .gap
  · exact agree_cons .pipe (agree_stepGap c)
  · exact agree_some (.cons .greatAnd .nil) .gap
  · exact agree_none
  · exact agree_cons .great (agree_stepGap c)

/-- A step on a template is a step on the text. -/
theorem agree_step {m : Mode (Char ⊕ H)} {m' : Mode Char} (h : Mode.Filled σ m m') (c : Char) :
  Agree σ (step .inl m c) (step id m' c)
  := by
  cases h with
  | gap => exact agree_stepGap c
  | word h => exact agree_stepWord h c
  | single h =>
      rw [step, step]
      split_ifs
      · exact agree_some .nil (.word h)
      · exact agree_none
      · rw [id, ← subst_concat]
        exact agree_some .nil (.single h)
  | double h =>
      rw [step, step]
      split_ifs
      · exact agree_some .nil (.word h)
      · exact agree_none
      · rw [id, ← subst_concat]
        exact agree_some .nil (.double h)
  | bracket =>
      rw [step, step]
      split_ifs
      · exact agree_some (.cons (.word (.inr rfl)) .nil) .gap
      · exact agree_none
  | operator first => exact agree_stepOperator first c

/-- A filled hole is read as the hole is. -/
theorem scan_hole {m n : Mode (Char ⊕ H)} {m' : Mode Char} {h : H} (hm : Mode.Filled σ m m')
    (hn : stepHole m h = some n) (hnul : '\x00' ∉ σ h) (cs : List Char) :
  ∃ n', Mode.Filled σ n n' ∧ scan id m' (quote (σ h) ++ cs) = scan id n' cs
  := by
  cases hm with
  | gap =>
      obtain rfl := Option.some.inj hn
      obtain ⟨s', hs⟩ := @scan_quote_gap _ id _ hnul cs
      rw [List.map_id] at hs
      refine ⟨.word (σ h) s', ?_, hs⟩
      rw [show σ h = subst σ [.inr h] by rw [subst, List.flatMap_singleton]; rfl]
      exact .word (.inl rfl)
  | word _ =>
      obtain rfl := Option.some.inj hn
      rename_i w s s' _
      obtain ⟨s'', hs⟩ := @scan_quote_word _ id (subst σ w) s' _ hnul cs
      rw [List.map_id, ← subst_concat_hole] at hs
      exact ⟨_, .word (.inl rfl), hs⟩
  | single _ => contradiction
  | double _ => contradiction
  | bracket => contradiction
  | operator _ => contradiction

/-- A template is read as the text is, whatever is put into its holes. -/
theorem agree_scan {ls : List (Char ⊕ H)} (hnul : ∀ h, .inr h ∈ ls → '\x00' ∉ σ h)
    {m : Mode (Char ⊕ H)} {m' : Mode Char} (hm : Mode.Filled σ m m') :
  Agree σ (scanTemplate m ls) (scan id m' (fill σ ls))
  := by
  induction ls generalizing m m' with
  | nil => exact agree_some .nil hm
  | cons l ls ih =>
      have ih {m m'} := @ih (fun h hmem => hnul h (List.mem_cons_of_mem _ hmem)) m m'
      cases l with
      | inl c =>
          intro ts n hr
          obtain ⟨⟨us, k⟩, hu, hr⟩ := Option.bind_eq_some_iff.mp hr
          obtain ⟨⟨vs, j⟩, hv, ⟨⟩⟩ := Option.map_eq_some_iff.mp hr
          obtain ⟨us', k', hu', hus, hk⟩ := agree_step hm c us k hu
          obtain ⟨vs', j', hv', hvs, hj⟩ := ih hk vs _ hv
          refine ⟨us' ++ vs', j', ?_, List.rel_append hus hvs, hj⟩
          change scan id m' (c :: fill σ ls) = _
          rw [scan, hu', Option.bind_some, hv', Option.map_some]
      | inr h =>
          intro ts n hr
          obtain ⟨k, hk, hr⟩ := Option.bind_eq_some_iff.mp hr
          obtain ⟨k', hkk, hscan⟩ := scan_hole hm hk (hnul h (List.mem_cons_self ..)) (fill σ ls)
          change ∃ ts' n', scan id m' (quote (σ h) ++ fill σ ls) = _ ∧ _
          rw [hscan]
          apply ih hkk ts n hr

theorem finish_filled {m : Mode (Char ⊕ H)} {m' : Mode Char} (h : Mode.Filled σ m m')
    {ts : List (Token (Char ⊕ H))} (ht : finish m = some ts) :
  ∃ ts', finish m' = some ts' ∧ List.Forall₂ (Token.Filled σ) ts ts'
  := by
  cases h with
  | gap =>
      obtain rfl := Option.some.inj ht
      exact ⟨[], rfl, .nil⟩
  | word h =>
      obtain rfl := Option.some.inj ht
      exact ⟨_, rfl, .cons (.word h) .nil⟩
  | single _ => contradiction
  | double _ => contradiction
  | bracket => contradiction
  | operator _ => contradiction

/-! ### What is parsed in a template -/

variable (σ) in
/-- What is parsed in a template, and what is parsed in the text. -/
def ParsedFilled (r : Parsed (Char ⊕ H)) (r' : Parsed Char) : Prop :=
  ∀ c ts, r = some (c, ts) → ∃ ts', r' = some (c.map (subst σ), ts') ∧
    List.Forall₂ (Token.Filled σ) ts ts'

def Goal.map (f : List α → List β) : Goal α → Goal β
  | .list => .list
  | .items c => .items (c.map f)
  | .andOr => .andOr
  | .operands c => .operands (c.map f)
  | .pipeline => .pipeline
  | .pipes c => .pipes (c.map f)
  | .command => .command

theorem parsedFilled_none {r' : Parsed Char} :
  ParsedFilled σ none r'
  := by
  intro c ts h
  contradiction

theorem parsedFilled_some {c : Command (Char ⊕ H)} {ts : List (Token (Char ⊕ H))}
    {ts' : List (Token Char)} (h : List.Forall₂ (Token.Filled σ) ts ts') :
  ParsedFilled σ (some (c, ts)) (some (c.map (subst σ), ts'))
  := by
  rintro _ _ ⟨⟩
  exact ⟨ts', rfl, h⟩

theorem ParsedFilled.andThen {r : Parsed (Char ⊕ H)} {r' : Parsed Char} (h : ParsedFilled σ r r')
    {k : Command (Char ⊕ H) → List (Token (Char ⊕ H)) → Parsed (Char ⊕ H)}
    {k' : Command Char → List (Token Char) → Parsed Char}
    (hk : ∀ c ts ts', List.Forall₂ (Token.Filled σ) ts ts' →
      ParsedFilled σ (k c ts) (k' (c.map (subst σ)) ts')) :
  ParsedFilled σ (r.andThen k) (r'.andThen k')
  := by
  intro c ts hr
  obtain ⟨⟨d, us⟩, hd, hr⟩ := Option.bind_eq_some_iff.mp hr
  obtain ⟨us', rfl, hus⟩ := h d us hd
  exact hk d us us' hus c ts hr

theorem first?_of_known {s s' : Spelling} (h : s.Known s') {r : Option Reserved}
    (hr : first? s = some r) :
  first? s' = some r
  := by
  rcases h with rfl | rfl
  · contradiction
  · exact hr

theorem ParsedFilled.expect {r : Reserved} {ts : List (Token (Char ⊕ H))} {ts' : List (Token Char)}
    (h : List.Forall₂ (Token.Filled σ) ts ts')
    {k : List (Token (Char ⊕ H)) → Parsed (Char ⊕ H)} {k' : List (Token Char) → Parsed Char}
    (hk : ∀ us us', List.Forall₂ (Token.Filled σ) us us' → ParsedFilled σ (k us) (k' us')) :
  ParsedFilled σ ((expect r ts).bind k) ((expect r ts').bind k')
  := by
  intro c us hr
  obtain ⟨vs, hv, hr⟩ := Option.bind_eq_some_iff.mp hr
  cases h with
  | nil => contradiction
  | cons ht hts =>
      cases ht with
      | word hs =>
          rw [Shell.expect] at hv
          obtain ⟨hfirst, hv⟩ := Option.ite_none_right_eq_some.mp hv
          obtain rfl := Option.some.inj hv
          rw [Shell.expect, if_pos (first?_of_known hs hfirst), Option.bind_some]
          exact hk _ _ hts c us hr
      | _ => contradiction

theorem closes_filled {ts : List (Token (Char ⊕ H))} {ts' : List (Token Char)}
    (h : List.Forall₂ (Token.Filled σ) ts ts') {b : Bool} (hb : closes ts = some b) :
  closes ts' = some b
  := by
  cases h with
  | nil => exact hb
  | cons ht _ =>
      cases ht with
      | word hs =>
          obtain ⟨r, hr, hb⟩ := Option.map_eq_some_iff.mp hb
          rw [closes, first?_of_known hs hr, Option.map_some, hb]
      | _ => exact hb

/-- The words of a simple command are taken one by one, whatever they are. -/
theorem parseSimple_filled (words : List (List (Char ⊕ H))) (redirects : List (Redirect (Char ⊕ H)))
    {ts : List (Token (Char ⊕ H))} {ts' : List (Token Char)}
    (h : List.Forall₂ (Token.Filled σ) ts ts') :
  ParsedFilled σ (some (parseSimple words redirects ts))
    (some (parseSimple (words.map (subst σ)) (redirects.map fun r => (r.1, r.2.map (subst σ))) ts'))
  := by
  fun_induction parseSimple words redirects ts generalizing ts' with
  | case1 words redirects w s ts ih =>
      cases h with
      | cons ht hts =>
          cases ht
          rw [parseSimple]
          have hrest := ih hts
          rwa [List.map_append] at hrest
  | case2 words redirects w s ts ih =>
      obtain _ | ⟨⟨⟩, _ | ⟨⟨⟩, hts⟩⟩ := h
      rw [parseSimple]
      have hrest := ih hts
      rwa [List.map_append] at hrest
  | case3 words redirects n w s ts ih =>
      obtain _ | ⟨⟨⟩, _ | ⟨⟨⟩, _ | ⟨⟨⟩, hts⟩⟩⟩ := h
      rw [parseSimple]
      have hrest := ih hts
      rwa [List.map_append] at hrest
  | case4 words redirects w s ts ih =>
      obtain _ | ⟨⟨⟩, _ | ⟨⟨⟩, hts⟩⟩ := h
      rw [parseSimple]
      have hrest := ih hts
      rwa [List.map_append] at hrest
  | case5 words redirects n w s ts ih =>
      obtain _ | ⟨⟨⟩, _ | ⟨⟨⟩, _ | ⟨⟨⟩, hts⟩⟩⟩ := h
      rw [parseSimple]
      have hrest := ih hts
      rwa [List.map_append] at hrest
  | case6 words redirects ts h1 h2 h3 h4 h5 =>
      -- where the words end in the template, they end in the text
      rw [parseSimple]
      · exact parsedFilled_some h
      · rintro w s us rfl
        obtain _ | ⟨⟨⟩, _⟩ := h
        exact h1 _ _ _ rfl
      · rintro w s us rfl
        obtain _ | ⟨⟨⟩, _ | ⟨⟨⟩, _⟩⟩ := h
        exact h2 _ _ _ rfl
      · rintro n w s us rfl
        obtain _ | ⟨⟨⟩, _ | ⟨⟨⟩, _ | ⟨⟨⟩, _⟩⟩⟩ := h
        exact h3 _ _ _ _ rfl
      · rintro w s us rfl
        obtain _ | ⟨⟨⟩, _ | ⟨⟨⟩, _⟩⟩ := h
        exact h4 _ _ _ rfl
      · rintro n w s us rfl
        obtain _ | ⟨⟨⟩, _ | ⟨⟨⟩, _ | ⟨⟨⟩, _⟩⟩⟩ := h
        exact h5 _ _ _ _ rfl

/-- What is parsed in a template is parsed in the text, with the words as they are filled. -/
theorem parseGoal_filled (n : ℕ) (g : Goal (Char ⊕ H)) {ts : List (Token (Char ⊕ H))}
    {ts' : List (Token Char)} (h : List.Forall₂ (Token.Filled σ) ts ts') :
  ParsedFilled σ (parseGoal n g ts) (parseGoal n (g.map (subst σ)) ts')
  := by
  induction n generalizing g ts ts' with
  | zero => exact parsedFilled_none
  | succ n ih =>
      have hall := h
      cases g with
      | list => exact (ih .andOr h).andThen fun c _ _ h => ih (.items c) h
      | andOr => exact (ih .pipeline h).andThen fun c _ _ h => ih (.operands c) h
      | pipeline => exact (ih .command h).andThen fun c _ _ h => ih (.pipes c) h
      | items c =>
          cases h with
          | nil => exact parsedFilled_some .nil
          | cons ht hts =>
              cases ht with
              | semi =>
                  intro d us hr
                  obtain ⟨closed, hclosed, hr⟩ := Option.bind_eq_some_iff.mp hr
                  rw [Goal.map, parseGoal, closes_filled hts hclosed, Option.bind_some]
                  cases closed with
                  | true => exact parsedFilled_some hts d us hr
                  | false =>
                      rw [if_neg Bool.false_ne_true] at hr ⊢
                      refine ParsedFilled.andThen (ih .andOr hts) ?_ d us hr
                      exact fun d _ _ h => ih (.items (.seq c d)) h
              | _ => exact parsedFilled_some hall
      | operands c =>
          cases h with
          | nil => exact parsedFilled_some .nil
          | cons ht hts =>
              cases ht with
              | and => exact (ih .pipeline hts).andThen fun d _ _ h => ih (.operands (.and c d)) h
              | or => exact (ih .pipeline hts).andThen fun d _ _ h => ih (.operands (.or c d)) h
              | _ => exact parsedFilled_some hall
      | pipes c =>
          cases h with
          | nil => exact parsedFilled_some .nil
          | cons ht hts =>
              cases ht with
              | pipe => exact (ih .command hts).andThen fun d _ _ h => ih (.pipes (.pipe c d)) h
              | _ => exact parsedFilled_some hall
      | command =>
          cases h with
          | nil => exact parsedFilled_none
          | cons ht hts =>
              cases ht with
              | word hs =>
                  rename_i w s s'
                  intro d us hr
                  obtain ⟨r, hfirst, hr⟩ := Option.bind_eq_some_iff.mp hr
                  rw [Goal.map, parseGoal, first?_of_known hs hfirst, Option.bind_some]
                  cases r with
                  | none => exact parseSimple_filled [w] [] hts d us hr
                  | some r =>
                      cases r with
                      | «if» =>
                          exact ((ih .list hts).andThen fun c _ _ h =>
                            .expect h fun _ _ h => (ih .list h).andThen fun d _ _ h =>
                              .expect h fun _ _ h => (ih .list h).andThen fun e _ _ h =>
                                .expect h fun _ _ h => parsedFilled_some h) d us hr
                      | opening =>
                          exact ((ih .list hts).andThen fun c _ _ h =>
                            .expect h fun _ _ h => parsedFilled_some h) d us hr
                      | _ => contradiction
              | _ => exact parsedFilled_none

theorem parseTokens_filled {ts : List (Token (Char ⊕ H))} {ts' : List (Token Char)}
    (h : List.Forall₂ (Token.Filled σ) ts ts') {c : Command (Char ⊕ H)}
    (hc : parseTokens ts = some c) :
  parseTokens ts' = some (c.map (subst σ))
  := by
  rw [parseTokens] at hc ⊢
  rw [← h.length_eq]
  split at hc
  · rename_i d hparse
    obtain rfl := Option.some.inj hc
    obtain ⟨us, hu, hus⟩ := parseGoal_filled _ .list h d [] hparse
    cases hus
    rw [show Goal.list = (Goal.list : Goal (Char ⊕ H)).map (subst σ) from rfl, hu]
  · contradiction

/-- The reading of a template does not depend on what is put into its holes: the text is read as the
command of the template, whose words have what was put in as it is. -/
theorem parse_fill {ls : List (Char ⊕ H)} (hnul : ∀ h, .inr h ∈ ls → '\x00' ∉ σ h)
    {c : Command (Char ⊕ H)} (h : parseTemplate ls = some c) :
  (tokens (fill σ ls)).bind parseTokens = some (c.map (subst σ))
  := by
  obtain ⟨ts, hts, hc⟩ := Option.bind_eq_some_iff.mp h
  obtain ⟨⟨us, m⟩, hus, hts⟩ := Option.bind_eq_some_iff.mp hts
  obtain ⟨vs, hvs, rfl⟩ := Option.map_eq_some_iff.mp hts
  obtain ⟨us', m', hus', hfilled, hm⟩ := agree_scan hnul .gap us m hus
  obtain ⟨vs', hvs', hfilled'⟩ := finish_filled hm hvs
  rw [tokens, hus', Option.bind_some, hvs', Option.map_some, Option.bind_some]
  exact parseTokens_filled (List.rel_append hfilled hfilled') hc

/-! ### Formats -/

/-- A piece of a format: a text as it stands, an argument in quotes, or a number. -/
inductive Fragment
  | text (s : String)
  | arg (s : String)
  | number (n : ℕ)
  deriving DecidableEq, Repr

/-- What is written for a piece. -/
def Fragment.write : Fragment → List Char
  | .text s => s.toList
  | .arg s => quote s.toList
  | .number n => (toString n).toList

/-- What stands for a piece in the template. -/
def Fragment.shape : Fragment → List (Char ⊕ String)
  | .text s => s.toList.map .inl
  | .arg s => [.inr s]
  | .number n => [.inr (toString n)]

/-- The text of a format. -/
def format (ps : List Fragment) : String :=
  String.ofList (ps.flatMap Fragment.write)

/-- A number needs no quotes. -/
theorem quote_toString (n : ℕ) :
  quote (toString n).toList = (toString n).toList
  := by
  rw [Decimal.toList_toString, quote, if_neg Nat.toDigits_ne_nil, if_pos]
  apply List.all_eq_true.mpr
  intro c hc
  rw [isSafe, Char.isAlphanum, Decimal.isDigit_of_mem hc, Bool.or_true, Bool.true_or]

theorem toList_format (ps : List Fragment) :
  (format ps).toList = fill String.toList (ps.flatMap Fragment.shape)
  := by
  rw [format, String.toList_ofList, fill, List.flatMap_assoc]
  apply List.flatMap_congr
  intro p _
  cases p with
  | text s =>
      rw [Fragment.write, Fragment.shape, List.flatMap_map]
      exact (List.flatMap_singleton' _).symm
  | arg s =>
      rw [Fragment.write, Fragment.shape, List.flatMap_singleton]
      rfl
  | number n =>
      rw [Fragment.write, Fragment.shape, List.flatMap_singleton, Sum.elim_inr, quote_toString]

/-- A text is read as the command of its format, with the arguments as they are. -/
theorem parse_format {ps : List Fragment} (hnul : ∀ s, .arg s ∈ ps → '\x00' ∉ s.toList)
    {c : Command (Char ⊕ String)} (h : parseTemplate (ps.flatMap Fragment.shape) = some c) :
  parse (format ps) = some (c.map (subst String.toList))
  := by
  rw [parse, toList_format]
  apply parse_fill _ h
  intro s hs
  obtain ⟨p, hp, hs⟩ := List.mem_flatMap.mp hs
  cases p with
  | text t =>
      obtain ⟨c, -, hc⟩ := List.mem_map.mp hs
      contradiction
  | arg t =>
      obtain rfl := Sum.inr.inj (List.mem_singleton.mp hs)
      apply hnul s hp
  | number n =>
      obtain rfl := Sum.inr.inj (List.mem_singleton.mp hs)
      rw [Decimal.toList_toString]
      apply Decimal.not_mem
      rfl

end Shell
