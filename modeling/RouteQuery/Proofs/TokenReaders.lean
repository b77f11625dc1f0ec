import RouteQuery.Proofs.OrderedChoice
import RouteQuery.Proofs.Tokenizing

/-! Words and symbols as they are read off a text, behind what does not count, and the tokens that stand for them:
a grammar made from either finds the same, and the same fault. -/
namespace RouteQuery.Scan
open Text

/-! ### Characters -/

def char (c : Char) : Scan Char Unit
  | [] => .error []
  | d :: cs => if d = c then .ok ((), cs) else .error (d :: cs)

def isSpace (c : Char) : Bool := c == ' ' || c == '\t' || c == '\r' || c == '\n'

def blanks : Scan Char Unit := fun cs =>
  if cs.takeWhile isSpace = [] then .error cs else .ok ((), cs.dropWhile isSpace)

def comment : Scan Char Unit := (char '#').bind fun _ cs =>
  match endOfComment? cs with
  | some rest => .ok ((), rest)
  | none => .error cs

def ignorable : Scan Char Unit := blanks.orElse ((char ',').orElse comment)

def ignored (cs : List Char) : List Char := (repeated ignorable cs).2

/-- Blanks, commas and comments do not count in front. -/
def ws {α : Type} (p : Scan Char α) : Scan Char α := fun cs => p (ignored cs)

def name : Scan Char String
  | [] => .error []
  | c :: cs =>
    if isWordStart c then .ok (String.ofList (c :: cs.takeWhile isWordChar), cs.dropWhile isWordChar)
    else .error (c :: cs)

/-- A name that must be this word; otherwise the fault is where the reading began. -/
def keyword (word : String) : Scan Char Unit := fun cs =>
  match ws name cs with
  | .ok (n, rest) => if n = word then .ok ((), rest) else .error cs
  | .error place => .error place

theorem keyword_of_ok {n : String} {cs rest : List Char} (h : ws name cs = .ok (n, rest)) (word : String) :
    keyword word cs = if n = word then .ok ((), rest) else .error cs := by rw [keyword, h]

theorem keyword_of_error {cs place : List Char} (h : ws name cs = .error place) (word : String) :
    keyword word cs = .error place := by rw [keyword, h]

/-! ### Tokens -/

def tokenName : Scan Lexeme String
  | ⟨.name n, _⟩ :: ls => .ok (n, ls)
  | ls => .error (startOf ls)

def token (t : Token) : Scan Lexeme Unit
  | [] => .error []
  | l :: ls => if l.token = t then .ok ((), ls) else .error l.start

/-- What a text and its tokens have in common for two readers: the same result, with the tokens of what is
left of the text, and the same fault. -/
def Lifts {α : Type} (p : Scan Char α) (q : Scan Lexeme α) : Prop :=
  ∀ cs, q (lexemes cs) = (p cs).map fun (a, rest) => (a, lexemes rest)

/-- The same result, but a fault of its own. -/
def Follows {α : Type} (p : Scan Char α) (q : Scan Lexeme α) : Prop :=
  ∀ cs, (∀ a rest, p cs = .ok (a, rest) → q (lexemes cs) = .ok (a, lexemes rest)) ∧
    ∀ place, p cs = .error place → ∃ place', q (lexemes cs) = .error place'

/-! ### What does not count -/

variable {c : Char} {cs rest place : List Char}

theorem char_cons (c d : Char) (cs : List Char) :
    char c (d :: cs) = if d = c then .ok ((), cs) else .error (d :: cs) := rfl

theorem eq_cons_of_char (h : char c cs = .ok ((), rest)) : cs = c :: rest := by
  cases cs with
  | nil => cases h
  | cons d cs =>
    rw [char_cons] at h
    split at h
    · next hd =>
      obtain ⟨-, rfl⟩ := Prod.mk.inj (Except.ok.inj h)
      rw [hd]
    · cases h

theorem takes_char (c : Char) : Takes (char c) := by
  intro cs a rest h
  rw [eq_cons_of_char h]
  exact Nat.lt_succ_self _

theorem takes_blanks : Takes blanks := by
  intro cs a rest h
  unfold blanks at h
  split at h
  · cases h
  · next hne =>
    obtain ⟨-, rfl⟩ := Prod.mk.inj (Except.ok.inj h)
    have hlength : (cs.takeWhile isSpace).length + (cs.dropWhile isSpace).length = cs.length := by
      rw [← List.length_append, List.takeWhile_append_dropWhile]
    have := List.length_pos_iff.mpr hne
    omega

theorem takes_comment : Takes comment := by
  refine (takes_char '#').bind fun _ cs _ rest h => ?_
  split at h
  · next hend =>
    obtain ⟨-, rfl⟩ := Prod.mk.inj (Except.ok.inj h)
    exact endOfComment?_le hend
  · cases h

theorem takes_ignorable : Takes ignorable := takes_blanks.orElse ((takes_char ',').orElse takes_comment)

theorem lexemes_blank (h : isSpace c = true ∨ c = ',') (cs : List Char) : lexemes (c :: cs) = lexemes cs := by
  have hblank : c = ' ' ∨ c = '\t' ∨ c = '\r' ∨ c = '\n' ∨ c = ',' := by
    simpa [isSpace, or_assoc] using h
  rw [lexemes, if_pos hblank]

theorem lexemes_of_comment (h : endOfComment? cs = some rest) : lexemes ('#' :: cs) = lexemes rest := by
  rw [lexemes, if_neg (by decide), if_pos rfl]
  split
  · next hrest => rw [Option.some.inj (hrest.symm.trans h)]
  · next hnone => cases hnone.symm.trans h

theorem lexemes_dropWhile_isSpace (cs : List Char) : lexemes (cs.dropWhile isSpace) = lexemes cs := by
  induction cs with
  | nil => rfl
  | cons c cs ih =>
    cases hc : isSpace c with
    | true => rw [List.dropWhile_cons_of_pos hc, ih, lexemes_blank (.inl hc)]
    | false => rw [List.dropWhile_cons_of_neg (by simp [hc])]

theorem lexemes_of_ignorable (h : ignorable cs = .ok ((), rest)) : lexemes rest = lexemes cs := by
  rcases or_of_orElse_eq_ok h with hblanks | h
  · unfold blanks at hblanks
    split at hblanks
    · cases hblanks
    · obtain ⟨-, rfl⟩ := Prod.mk.inj (Except.ok.inj hblanks)
      exact lexemes_dropWhile_isSpace cs
  rcases or_of_orElse_eq_ok h with hcomma | hcomment
  · rw [eq_cons_of_char hcomma, lexemes_blank (.inr rfl)]
  · obtain ⟨_, line, hhash, hline⟩ := exists_of_bind_eq_ok hcomment
    rw [eq_cons_of_char hhash]
    split at hline
    · next hend =>
      obtain ⟨-, rfl⟩ := Prod.mk.inj (Except.ok.inj hline)
      exact (lexemes_of_comment hend).symm
    · cases hline

theorem lexemes_ignored (cs : List Char) : lexemes (ignored cs) = lexemes cs := by
  induction hn : cs.length using Nat.strongRecOn generalizing cs with
  | _ n ih =>
    subst hn
    cases h : ignorable cs with
    | error place => rw [ignored, repeated_of_error h]
    | ok result =>
      rw [ignored, repeated_of_ok takes_ignorable h]
      exact (ih _ (takes_ignorable _ _ _ h) _ rfl).trans (lexemes_of_ignorable h)

theorem exists_error_ignored (cs : List Char) : ∃ place, ignorable (ignored cs) = .error place :=
  exists_error_behind_repeated takes_ignorable cs

/-- What does not count is neither a blank nor a comma nor a comment that can be read. -/
theorem of_not_ignorable (h : ignorable (c :: cs) = .error place) :
    isSpace c = false ∧ c ≠ ',' ∧ (c = '#' → endOfComment? cs = none) := by
  obtain ⟨⟨place', hblanks⟩, h⟩ := errors_of_orElse_eq_error h
  obtain ⟨⟨place'', hcomma⟩, hcomment⟩ := errors_of_orElse_eq_error h
  refine ⟨?_, ?_, ?_⟩
  · cases hc : isSpace c with
    | false => rfl
    | true => simp [blanks, hc] at hblanks
  · rintro rfl
    cases hcomma
  · rintro rfl
    cases hend : endOfComment? cs with
    | none => rfl
    | some rest => simp [comment, bind, char, hend] at hcomment

/-- Every symbol has a token of its own. -/
theorem symbols_unique {d : Char} {t t' : Token} (h : (c, t) ∈ symbols) (h' : (d, t') ∈ symbols) :
    c = d ↔ t = t' := by
  simp only [symbols, List.mem_cons, Prod.mk.injEq, List.not_mem_nil, or_false] at h h'
  rcases h with ⟨rfl, rfl⟩ | ⟨rfl, rfl⟩ | ⟨rfl, rfl⟩ | ⟨rfl, rfl⟩ <;>
    rcases h' with ⟨rfl, rfl⟩ | ⟨rfl, rfl⟩ | ⟨rfl, rfl⟩ | ⟨rfl, rfl⟩ <;> decide

theorem ne_name_of_mem_symbols {t : Token} (h : (c, t) ∈ symbols) (n : String) : .name n ≠ t := by
  rintro rfl
  simp [symbols] at h

theorem ne_stray_of_mem_symbols {t : Token} (h : (c, t) ∈ symbols) : .stray ≠ t := by
  rintro rfl
  simp [symbols] at h

theorem lexemes_symbol {t : Token} (h : (c, t) ∈ symbols) (cs : List Char) :
    lexemes (c :: cs) = ⟨t, c :: cs⟩ :: lexemes cs := by
  simp only [symbols, List.mem_cons, Prod.mk.injEq, List.not_mem_nil, or_false] at h
  rcases h with ⟨rfl, rfl⟩ | ⟨rfl, rfl⟩ | ⟨rfl, rfl⟩ | ⟨rfl, rfl⟩ <;> rw [lexemes] <;> simp [isWordStart]

/-- What counts and is neither a word nor a symbol is where the tokens end. -/
theorem lexemes_stray (h : ignorable (c :: cs) = .error place) (hword : isWordStart c = false)
    (hsymbol : ∀ t, (c, t) ∉ symbols) : lexemes (c :: cs) = [⟨.stray, c :: cs⟩] := by
  obtain ⟨hspace, hcomma, hcomment⟩ := of_not_ignorable h
  have hblank : ¬(c = ' ' ∨ c = '\t' ∨ c = '\r' ∨ c = '\n' ∨ c = ',') := by
    simpa [isSpace, hcomma, and_assoc] using hspace
  rw [lexemes, if_neg hblank]
  by_cases hhash : c = '#'
  · rw [if_pos hhash]
    split
    · next rest hrest => cases (hcomment hhash).symm.trans hrest
    · rfl
  simp only [symbols, List.mem_cons, Prod.mk.injEq, List.not_mem_nil, or_false, not_or, not_and] at hsymbol
  rw [if_neg hhash, if_neg (by simp [hword]), if_neg fun hc => (hsymbol _).1 hc rfl,
    if_neg fun hc => (hsymbol _).2.1 hc rfl, if_neg fun hc => (hsymbol _).2.2.1 hc rfl,
    if_neg fun hc => (hsymbol _).2.2.2 hc rfl]

/-- Where the first token of a text starts, what does not count ends. -/
theorem startOf_lexemes (cs : List Char) : startOf (lexemes cs) = ignored cs := by
  obtain ⟨place, hplace⟩ := exists_error_ignored cs
  rw [← lexemes_ignored cs]
  cases hcs : ignored cs with
  | nil => simp [lexemes, startOf]
  | cons c after =>
    rw [hcs] at hplace
    cases hstart : isWordStart c with
    | true => rw [lexemes_word hstart, startOf]
    | false =>
      by_cases hsymbol : ∃ t, (c, t) ∈ symbols
      · obtain ⟨t, ht⟩ := hsymbol
        rw [lexemes_symbol ht, startOf]
      · rw [lexemes_stray hplace hstart fun t ht => hsymbol ⟨t, ht⟩, startOf]

theorem ignored_eq_nil_iff : ignored cs = [] ↔ lexemes cs = [] := by
  constructor
  · intro h
    rw [← lexemes_ignored cs, h, lexemes]
  · intro h
    rw [← startOf_lexemes cs, h, startOf]

theorem length_lexemes_le (cs : List Char) : (lexemes cs).length ≤ cs.length := by
  fun_induction lexemes cs with
  | case1 => exact le_rfl
  | case2 c cs _ ih => exact ih.trans (Nat.le_succ _)
  | case3 cs rest hend _ ih => exact (ih.trans (endOfComment?_le hend)).trans (Nat.le_succ _)
  | case5 c cs _ _ _ ih => exact Nat.succ_le_succ (ih.trans (length_dropWhile_le isWordChar cs))
  | case6 cs _ _ _ ih | case7 cs _ _ _ _ ih | case8 cs _ _ _ _ _ ih | case9 cs _ _ _ _ _ _ ih =>
    exact Nat.succ_le_succ ih
  | case4 | case10 => exact Nat.succ_le_succ (Nat.zero_le _)

theorem tokenName_eq_error {ls : List Lexeme} (h : ∀ n start rest, ls ≠ ⟨.name n, start⟩ :: rest) :
    tokenName ls = .error (startOf ls) := by
  unfold tokenName
  split
  · exact absurd rfl (h _ _ _)
  · rfl

theorem exists_of_tokenName {n : String} {ls rest : List Lexeme} (h : tokenName ls = .ok (n, rest)) :
    ∃ start, ls = ⟨.name n, start⟩ :: rest := by
  unfold tokenName at h
  split at h
  · next n' start rest' =>
    obtain ⟨rfl, rfl⟩ := Prod.mk.inj (Except.ok.inj h)
    exact ⟨start, rfl⟩
  · cases h

theorem token_eq_error {t : Token} {ls : List Lexeme} (h : ∀ start rest, ls ≠ ⟨t, start⟩ :: rest) :
    token t ls = .error (startOf ls) := by
  cases ls with
  | nil => rfl
  | cons l ls => exact if_neg fun hl => h l.start ls (by rw [← hl])

theorem takes_ws {α : Type} {p : Scan Char α} (h : Takes p) : Takes (ws p) := fun cs a rest hp =>
  (h _ a rest hp).trans_le (shortens_many takes_ignorable cs _ _ rfl)

theorem takes_name : Takes name := by
  intro cs n rest h
  cases cs with
  | nil => cases h
  | cons c cs =>
    rw [name] at h
    split at h
    · obtain ⟨-, rfl⟩ := Prod.mk.inj (Except.ok.inj h)
      exact Nat.lt_succ_of_le (length_dropWhile_le isWordChar cs)
    · cases h

theorem takes_tokenName : Takes tokenName := by
  intro ls n rest h
  obtain ⟨start, rfl⟩ := exists_of_tokenName h
  exact Nat.lt_succ_self _

theorem takes_keyword {word : String} : Takes (keyword word) := by
  intro cs n rest h
  unfold keyword at h
  split at h
  · next hname =>
    split at h
    · obtain ⟨-, rfl⟩ := Prod.mk.inj (Except.ok.inj h)
      exact takes_ws takes_name _ _ _ hname
    · cases h
  · cases h

theorem takes_token (t : Token) : Takes (token t) := by
  intro ls a rest h
  unfold token at h
  split at h
  · cases h
  · split at h
    · obtain ⟨-, rfl⟩ := Prod.mk.inj (Except.ok.inj h)
      exact Nat.lt_succ_self _
    · cases h

theorem lifts_tokenName : Lifts (ws name) tokenName := by
  intro cs
  obtain ⟨place, hplace⟩ := exists_error_ignored cs
  rw [← lexemes_ignored cs, ws]
  cases hcs : ignored cs with
  | nil => rw [lexemes]; rfl
  | cons c after =>
    rw [hcs] at hplace
    cases hstart : isWordStart c with
    | true =>
      rw [lexemes_word hstart, name, if_pos hstart]
      rfl
    | false =>
      rw [name, if_neg (by simp [hstart])]
      by_cases hsymbol : ∃ t, (c, t) ∈ symbols
      · obtain ⟨t, ht⟩ := hsymbol
        rw [lexemes_symbol ht, tokenName, startOf]
        · rfl
        · rintro n start ls hcons
          exact ne_name_of_mem_symbols ht n (Lexeme.mk.inj (List.cons.inj hcons).1).1.symm
      · rw [lexemes_stray hplace hstart fun t ht => hsymbol ⟨t, ht⟩]
        rfl

theorem lifts_symbol {t : Token} (h : (c, t) ∈ symbols) : Lifts (ws (char c)) (token t) := by
  intro cs
  obtain ⟨place, hplace⟩ := exists_error_ignored cs
  rw [← lexemes_ignored cs, ws]
  cases hcs : ignored cs with
  | nil => rw [lexemes]; rfl
  | cons d after =>
    rw [hcs] at hplace
    rw [char_cons]
    by_cases hsymbol : ∃ t', (d, t') ∈ symbols
    · obtain ⟨t', ht'⟩ := hsymbol
      rw [lexemes_symbol ht', token]
      simp only [symbols_unique ht' h]
      split_ifs <;> rfl
    have hne : d ≠ c := fun hd => hsymbol ⟨t, hd ▸ h⟩
    rw [if_neg hne]
    cases hstart : isWordStart d with
    | true =>
      rw [lexemes_word hstart, token, if_neg (ne_name_of_mem_symbols h _)]
      rfl
    | false =>
      rw [lexemes_stray hplace hstart fun t ht => hsymbol ⟨t, ht⟩, token, if_neg (ne_stray_of_mem_symbols h)]
      rfl

/-! ### From the text to its tokens -/

section
variable {α β : Type} {p : Scan Char α} {q : Scan Lexeme α} {f : α → Scan Char β} {g : α → Scan Lexeme β}

theorem Lifts.of_ok (h : Lifts p q) {a : α} (hp : p cs = .ok (a, rest)) : q (lexemes cs) = .ok (a, lexemes rest) := by
  rw [h cs, hp]
  rfl

theorem Lifts.of_error (h : Lifts p q) (hp : p cs = .error place) : q (lexemes cs) = .error place := by
  rw [h cs, hp]
  rfl

theorem Lifts.error_of_error (h : Lifts p q) (hq : q (lexemes cs) = .error place) : p cs = .error place := by
  cases hp : p cs with
  | error place' => rw [Except.error.inj ((h.of_error hp).symm.trans hq)]
  | ok result => cases (h.of_ok hp).symm.trans hq

theorem Lifts.exists_of_ok (h : Lifts p q) {a : α} {ls : List Lexeme} (hq : q (lexemes cs) = .ok (a, ls)) :
    ∃ rest, p cs = .ok (a, rest) ∧ lexemes rest = ls := by
  cases hp : p cs with
  | error place => cases (h.of_error hp).symm.trans hq
  | ok result =>
    obtain ⟨rfl, hrest⟩ := Prod.mk.inj (Except.ok.inj ((h.of_ok hp).symm.trans hq))
    exact ⟨result.2, rfl, hrest⟩

theorem lifts_pure (a : α) : Lifts (pure a) (pure a) := fun _ => rfl

theorem Lifts.bind (h : Lifts p q) (hf : ∀ a, Lifts (f a) (g a)) : Lifts (p.bind f) (q.bind g) := by
  intro cs
  cases hp : p cs with
  | error place => rw [bind_of_error hp, bind_of_error (h.of_error hp)]; rfl
  | ok result => rw [bind_of_ok hp, bind_of_ok (h.of_ok hp), hf]

theorem Lifts.opt (h : Lifts p q) : Lifts p.opt q.opt := by
  intro cs
  cases hp : p cs with
  | error place => rw [opt_of_error hp, opt_of_error (h.of_error hp)]; rfl
  | ok result => rw [opt_of_ok hp, opt_of_ok (h.of_ok hp)]; rfl

theorem Lifts.follows (h : Lifts p q) : Follows p q := fun _ =>
  ⟨fun _ _ hp => h.of_ok hp, fun place hp => ⟨place, h.of_error hp⟩⟩

theorem Follows.bind (h : Follows p q) (hf : ∀ a, Follows (f a) (g a)) : Follows (p.bind f) (q.bind g) := by
  intro cs
  cases hp : p cs with
  | error place =>
    obtain ⟨place', hq⟩ := (h cs).2 place hp
    rw [bind_of_error hp]
    exact ⟨fun _ _ hok => (nomatch hok), fun _ _ => ⟨place', bind_of_error hq⟩⟩
  | ok result =>
    rw [bind_of_ok hp, bind_of_ok ((h cs).1 _ _ hp)]
    exact hf _ _

/-- A repetition forgets the fault that ends it. -/
theorem Follows.many (h : Follows p q) (hp : Takes p) (hq : Takes q) : Lifts p.many q.many := by
  intro cs
  induction hn : cs.length using Nat.strongRecOn generalizing cs with
  | _ n ih =>
    subst hn
    cases hfirst : p cs with
    | error place =>
      obtain ⟨place', hfail⟩ := (h cs).2 place hfirst
      rw [Scan.many, Scan.many, repeated_of_error hfirst, repeated_of_error hfail]
      rfl
    | ok result =>
      have hrest := Except.ok.inj (ih _ (hp _ _ _ hfirst) _ rfl)
      rw [Scan.many, Scan.many, repeated_of_ok hp hfirst, repeated_of_ok hq ((h cs).1 _ _ hfirst), hrest]
      rfl

theorem Lifts.many1 (h : Lifts p q) (hp : Takes p) (hq : Takes q) : Lifts p.many1 q.many1 :=
  h.bind fun _ => (h.follows.many hp hq).bind fun _ => lifts_pure _

/-- What has been read is the whole text: nothing that counts may be left. -/
def complete : Except (List Char) (α × List Char) → Except (List Char) α
  | .ok (a, rest) => if ignored rest = [] then .ok a else .error (ignored rest)
  | .error place => .error place

/-- The same of tokens. -/
def completeTokens : Except (List Char) (α × List Lexeme) → Except (List Char) α
  | .ok (a, []) => .ok a
  | .ok (_, extra) => .error (startOf extra)
  | .error place => .error place

theorem complete_pure (f : α → β) : complete ((p.bind fun a => pure (f a)) cs) = (complete (p cs)).map f := by
  cases hp : p cs with
  | error place =>
    rw [bind_of_error hp]
    rfl
  | ok result =>
    rw [bind_of_ok hp, pure, complete, complete]
    split <;> rfl

theorem complete_ok (a : α) (rest : List Char) :
    complete (.ok (a, rest)) = completeTokens (.ok (a, lexemes rest)) := by
  simp only [complete, ignored_eq_nil_iff]
  rw [← startOf_lexemes]
  cases lexemes rest <;> rfl

theorem Lifts.complete_eq (h : Lifts p q) (cs : List Char) : complete (p cs) = completeTokens (q (lexemes cs)) := by
  cases hp : p cs with
  | error place =>
    rw [h.of_error hp]
    rfl
  | ok result => rw [h.of_ok hp, complete_ok]

end

/-! ### Grammars over either -/

theorem follows_keyword (word : String) : Follows (keyword word) (token (.name word)) := by
  intro cs
  cases hname : ws name cs with
  | error place =>
    have hls : ∀ n start rest, lexemes cs ≠ ⟨.name n, start⟩ :: rest := by
      rintro n start rest hls
      have hfail := lifts_tokenName.of_error hname
      rw [hls] at hfail
      cases hfail
    rw [keyword_of_error hname, token_eq_error (hls word)]
    exact ⟨fun _ _ hok => (nomatch hok), fun _ _ => ⟨_, rfl⟩⟩
  | ok result =>
    obtain ⟨n, rest⟩ := result
    obtain ⟨start, hls⟩ := exists_of_tokenName (lifts_tokenName.of_ok hname)
    rw [keyword_of_ok hname, hls, token]
    simp only [Token.name.injEq]
    split
    · refine ⟨fun _ rest hok => ?_, fun _ herror => (nomatch herror)⟩
      obtain ⟨-, rfl⟩ := Prod.mk.inj (Except.ok.inj hok)
      rfl
    · exact ⟨fun _ _ hok => (nomatch hok), fun _ _ => ⟨start, rfl⟩⟩

/-- The words and symbols from which the readers of both grammars are made. -/
structure Terminals (σ : Type) where
  name : Scan σ String
  openBrace : Scan σ Unit
  closeBrace : Scan σ Unit
  colon : Scan σ Unit
  bang : Scan σ Unit
  takes_name : Takes name
  takes_openBrace : Takes openBrace
  takes_closeBrace : Takes closeBrace
  takes_colon : Takes colon
  takes_bang : Takes bang

def inText : Terminals Char where
  name := ws name
  openBrace := ws (char '{')
  closeBrace := ws (char '}')
  colon := ws (char ':')
  bang := ws (char '!')
  takes_name := takes_ws takes_name
  takes_openBrace := takes_ws (takes_char '{')
  takes_closeBrace := takes_ws (takes_char '}')
  takes_colon := takes_ws (takes_char ':')
  takes_bang := takes_ws (takes_char '!')

def inTokens : Terminals Lexeme where
  name := tokenName
  openBrace := token .openBrace
  closeBrace := token .closeBrace
  colon := token .colon
  bang := token .bang
  takes_name := takes_tokenName
  takes_openBrace := takes_token .openBrace
  takes_closeBrace := takes_token .closeBrace
  takes_colon := takes_token .colon
  takes_bang := takes_token .bang

theorem inTokens_name {n : String} {start : List Char} {ls rest : List Lexeme} (h : ls = ⟨.name n, start⟩ :: rest) :
    inTokens.name ls = .ok (n, rest) := by
  rw [h]
  rfl

theorem lifts_name : Lifts inText.name inTokens.name := lifts_tokenName

theorem lifts_openBrace : Lifts inText.openBrace inTokens.openBrace := lifts_symbol (by simp [symbols])

theorem lifts_closeBrace : Lifts inText.closeBrace inTokens.closeBrace := lifts_symbol (by simp [symbols])

theorem lifts_colon : Lifts inText.colon inTokens.colon := lifts_symbol (by simp [symbols])

theorem lifts_bang : Lifts inText.bang inTokens.bang := lifts_symbol (by simp [symbols])

end RouteQuery.Scan
