import RouteQuery.Proofs.SchemaFaults
import RouteQuery.Proofs.TokenReaders

/-! The grammar of schema text, `Type+` with `Type = "type" Name "{" Field* "}"` and `Field = Name ":" Name "!"?`, as
readers made of ordered choice. Reading the tokens in one pass comes to the same. -/
namespace RouteQuery.SchemaText
open Scan

section
variable {σ : Type} (t : Terminals σ) (keyword : Scan σ Unit)

def typeRefReader : Scan σ TypeRef := t.name.bind fun n => t.bang.opt.bind fun bang => Scan.pure ⟨n, bang.isSome⟩

def fieldReader : Scan σ (String × TypeRef) :=
  t.name.bind fun f => t.colon.bind fun _ => (typeRefReader t).bind fun r => Scan.pure (f, r)

def namedReader : Scan σ ObjectType :=
  t.name.bind fun n => t.openBrace.bind fun _ => (fieldReader t).many.bind fun fields => t.closeBrace.bind fun _ =>
    Scan.pure ⟨n, fields⟩

def typeReader : Scan σ ObjectType := keyword.bind fun _ => namedReader t

variable {t} {keyword}

theorem takes_fieldReader : Takes (fieldReader t) :=
  t.takes_name.bind fun _ => t.takes_colon.shortens.bind fun _ =>
    (t.takes_name.bind fun _ => t.takes_bang.shortens.opt.bind fun _ => shortens_pure _).shortens.bind fun _ =>
      shortens_pure _

theorem takes_typeReader (h : Takes keyword) : Takes (typeReader t keyword) :=
  h.bind fun _ => t.takes_name.shortens.bind fun _ => t.takes_openBrace.shortens.bind fun _ =>
    (shortens_many takes_fieldReader).bind fun _ => t.takes_closeBrace.shortens.bind fun _ => shortens_pure _

end

theorem lifts_fieldReader : Lifts (fieldReader inText) (fieldReader inTokens) :=
  lifts_name.bind fun _ => lifts_colon.bind fun _ =>
    (lifts_name.bind fun _ => lifts_bang.opt.bind fun _ => lifts_pure _).bind fun _ => lifts_pure _

theorem lifts_namedReader : Lifts (namedReader inText) (namedReader inTokens) :=
  lifts_name.bind fun _ => lifts_openBrace.bind fun _ =>
    (lifts_fieldReader.follows.many takes_fieldReader takes_fieldReader).bind fun _ => lifts_closeBrace.bind fun _ =>
      lifts_pure _

theorem follows_typeReader :
    Follows (typeReader inText (keyword "type")) (typeReader inTokens (token (.name "type"))) :=
  (follows_keyword "type").bind fun _ => lifts_namedReader.follows

/-! ### One pass over the tokens -/

section
variable {finished : List ObjectType} {place : List Char} {n : String} {fields : List (String × TypeRef)}
  {before after ls : List Lexeme}

theorem ne_cons_of_head? {t : Token} (h : ∀ l ∈ ls.head?, l.token ≠ t) (start : List Char) (rest : List Lexeme) :
    ls ≠ ⟨t, start⟩ :: rest := by
  rintro rfl
  exact h _ rfl rfl

theorem fieldReader_nonNull (f t : String) (s s' s'' mark : List Char) (ls : List Lexeme) :
    fieldReader inTokens (⟨.name f, s⟩ :: ⟨.colon, s'⟩ :: ⟨.name t, s''⟩ :: ⟨.bang, mark⟩ :: ls) =
      .ok ((f, ⟨t, true⟩), ls) := rfl

theorem fieldReader_nullable (f t : String) (s s' s'' : List Char) (h : ∀ l ∈ ls.head?, l.token ≠ .bang) :
    fieldReader inTokens (⟨.name f, s⟩ :: ⟨.colon, s'⟩ :: ⟨.name t, s''⟩ :: ls) = .ok ((f, ⟨t, false⟩), ls) := by
  have htype : typeRefReader inTokens (⟨.name t, s''⟩ :: ls) = .ok (⟨t, false⟩, ls) :=
    bind_of_ok (opt_of_error (token_eq_error (ne_cons_of_head? h)))
  exact bind_of_ok htype

theorem fieldReader_closeBrace (start : List Char) (rest : List Lexeme) :
    fieldReader inTokens (⟨.closeBrace, start⟩ :: rest) = .error start := rfl

theorem FieldStops.exists_error (h : FieldStops before after) :
    ∃ place, fieldReader inTokens (before ++ after) = .error place := by
  cases h with
  | name h => exact ⟨_, bind_of_error (tokenName_eq_error fun n => ne_cons_of_head? fun l hl => (h l hl).2 n)⟩
  | colon h =>
    refine ⟨startOf after, ?_⟩
    rw [fieldReader, bind_of_ok (p := inTokens.name) rfl]
    exact bind_of_error (token_eq_error (ne_cons_of_head? h))
  | type h =>
    refine ⟨startOf after, ?_⟩
    rw [fieldReader, bind_of_ok (p := inTokens.name) rfl, bind_of_ok (p := inTokens.colon) rfl]
    have htype : typeRefReader inTokens after = .error (startOf after) :=
      bind_of_error (tokenName_eq_error fun n => ne_cons_of_head? fun l hl => h l hl n)
    exact bind_of_error htype

/-- The fault is told where the field that is not complete starts or, behind the first definition, where its
definition starts. -/
theorem FieldStops.typeDefs_eq (h : FieldStops before after) :
    typeDefs finished (some (place, n, fields)) (before ++ after) =
      .error (if finished.isEmpty then startOf (before ++ after) else place) := by
  cases h with
  | name h =>
    rcases after with _ | ⟨⟨_ | _ | _ | _ | _ | _, start⟩, rest⟩
    case name.cons.name => exact absurd rfl ((h _ rfl).2 _)
    case name.cons.closeBrace => exact absurd rfl (h _ rfl).1
    all_goals rfl
  | colon h =>
    rcases after with _ | ⟨⟨_ | _ | _ | _ | _ | _, start⟩, rest⟩
    case colon.cons.colon => exact absurd rfl (h _ rfl)
    all_goals rfl
  | type h =>
    rcases after with _ | ⟨⟨_ | _ | _ | _ | _ | _, start⟩, rest⟩
    case type.cons.name => exact absurd rfl (h _ rfl _)
    all_goals rfl

theorem FieldStops.not_closeBrace (h : FieldStops before after) (start : List Char) (rest : List Lexeme) :
    before ++ after ≠ ⟨.closeBrace, start⟩ :: rest := by
  cases h with
  | name h => exact ne_cons_of_head? (fun l hl => (h l hl).1) start rest
  | colon | type => simp

/-- What is left of a definition of which `fields` have been read, in reverse. -/
def restOfType (n : String) (fields : List (String × TypeRef)) : Scan Lexeme ObjectType := fun ls =>
  (inTokens.closeBrace.bind fun _ => Scan.pure ⟨n, fields.reverse ++ (repeated (fieldReader inTokens) ls).1⟩)
    (repeated (fieldReader inTokens) ls).2

theorem restOfType_of_ok {field : String × TypeRef} {rest : List Lexeme}
    (h : fieldReader inTokens ls = .ok (field, rest)) :
    restOfType n fields ls = restOfType n (field :: fields) rest := by
  rw [restOfType, repeated_of_ok takes_fieldReader h, restOfType, List.reverse_cons, List.append_assoc,
    List.singleton_append]

theorem restOfType_of_error (h : fieldReader inTokens ls = .error place) :
    restOfType n fields ls = (inTokens.closeBrace.bind fun _ => Scan.pure ⟨n, fields.reverse⟩) ls := by
  rw [restOfType, repeated_of_error h, List.append_nil]

/-- Inside a definition one pass reads what is left of it and goes on behind it. A fault in any but the first is
told where the definition starts. -/
theorem typeDefs_some (ls : List Lexeme) :
    typeDefs finished (some (place, n, fields)) ls =
      match restOfType n fields ls with
      | .ok (type, rest) => typeDefs (type :: finished) none rest
      | .error fault => .error (if finished.isEmpty then fault else place) := by
  induction hn : ls.length using Nat.strongRecOn generalizing fields ls with
  | _ m ih =>
    subst hn
    rcases field_or_stops ls with ⟨start, rest, rfl⟩ | ⟨f, s, s', t, s'', rest, rfl⟩ | ⟨before, after, rfl, hstops⟩
    · rw [typeDefs_closeBrace, restOfType_of_error (fieldReader_closeBrace start rest)]
      rfl
    · have hless : rest.length < (⟨.name f, s⟩ :: ⟨.colon, s'⟩ :: ⟨.name t, s''⟩ :: rest : List Lexeme).length := by
        simp only [List.length_cons]
        omega
      by_cases hbang : ∃ mark rest', rest = ⟨.bang, mark⟩ :: rest'
      · obtain ⟨mark, rest, rfl⟩ := hbang
        rw [typeDefs_nonNull, restOfType_of_ok (fieldReader_nonNull f t s s' s'' mark rest)]
        exact ih rest.length (Nat.lt_of_le_of_lt (Nat.le_succ _) hless) rest rfl
      · have hhead := token_ne_of_head? hbang
        rw [typeDefs_nullable place f t s s' s'' hhead, restOfType_of_ok (fieldReader_nullable f t s s' s'' hhead)]
        exact ih rest.length hless rest rfl
    · obtain ⟨place', hfail⟩ := hstops.exists_error
      have hclose : inTokens.closeBrace (before ++ after) = .error (startOf (before ++ after)) :=
        token_eq_error hstops.not_closeBrace
      rw [hstops.typeDefs_eq, restOfType_of_error hfail, bind_of_error hclose]

theorem HeadStops.exists_error (h : HeadStops before after) :
    ∃ place, typeReader inTokens (token (.name "type")) (before ++ after) = .error place := by
  refine ⟨startOf after, ?_⟩
  cases h with
  | keyword h => exact bind_of_error (token_eq_error (ne_cons_of_head? h))
  | name h =>
    rw [typeReader, bind_of_ok (p := token _) rfl]
    exact bind_of_error (tokenName_eq_error fun n => ne_cons_of_head? fun l hl => h l hl n)
  | brace h =>
    rw [typeReader, bind_of_ok (p := token _) rfl, namedReader, bind_of_ok (p := inTokens.name) rfl]
    exact bind_of_error (token_eq_error (ne_cons_of_head? h))

/-- Behind the first definition a head that is not complete is where the definitions end. -/
theorem HeadStops.typeDefs_eq (h : HeadStops before after) (hfinished : finished ≠ []) :
    typeDefs finished none (before ++ after) = completeTokens (.ok (finished.reverse, before ++ after)) := by
  cases h with
  | keyword h =>
    rcases after with _ | ⟨⟨_ | _ | _ | _ | _ | _, start⟩, rest⟩
    case keyword.nil => exact if_neg (by simpa using hfinished)
    case keyword.cons.name word =>
      have hword : word ≠ "type" := fun hword => h _ rfl (by rw [hword])
      rw [List.nil_append]
      unfold typeDefs
      dsimp only
      split
      · next hname =>
        rw [if_neg (Token.name.inj hname ▸ hword)]
        rfl
      · rfl
    all_goals rfl
  | name h =>
    rcases after with _ | ⟨⟨_ | _ | _ | _ | _ | _, start⟩, rest⟩
    case name.cons.name => exact absurd rfl (h _ rfl _)
    all_goals rfl
  | brace h =>
    rcases after with _ | ⟨⟨_ | _ | _ | _ | _ | _, start⟩, rest⟩
    case brace.cons.openBrace => exact absurd rfl (h _ rfl)
    all_goals rfl

theorem typeReader_head (s s' s'' : List Char) (ls : List Lexeme) :
    typeReader inTokens (token (.name "type")) (⟨.name "type", s⟩ :: ⟨.name n, s'⟩ :: ⟨.openBrace, s''⟩ :: ls) =
      restOfType n [] ls := rfl

theorem typeDefs_none (hfinished : finished ≠ []) (ls : List Lexeme) :
    typeDefs finished none ls =
      completeTokens (.ok (finished.reverse ++ (repeated (typeReader inTokens (token (.name "type"))) ls).1,
        (repeated (typeReader inTokens (token (.name "type"))) ls).2)) := by
  induction hn : ls.length using Nat.strongRecOn generalizing finished ls with
  | _ m ih =>
    subst hn
    rcases head_or_stops ls with ⟨s, s', s'', n, rest, rfl⟩ | ⟨before, after, rfl, hstops⟩
    · have htype := typeReader_head (n := n) s s' s'' rest
      rw [typeDefs_head, typeDefs_some]
      cases hrest : restOfType n [] rest with
      | ok result =>
        rw [hrest] at htype
        have hless := takes_typeReader (takes_token _) _ _ _ htype
        rw [repeated_of_ok (takes_typeReader (takes_token _)) htype]
        refine (ih _ hless (List.cons_ne_nil result.1 finished) result.2 rfl).trans ?_
        rw [List.reverse_cons, List.append_assoc, List.singleton_append]
      | error fault =>
        rw [hrest] at htype
        rw [repeated_of_error htype, List.append_nil]
        exact congrArg Except.error (if_neg (by simpa using hfinished))
    · obtain ⟨place', hfail⟩ := hstops.exists_error
      rw [hstops.typeDefs_eq hfinished, repeated_of_error hfail, List.append_nil]

end

/-! ### Whole schema texts -/

section
variable {text place : List Char}

/-- The first definition is refused where its head is. -/
theorem typeReader_of_headFault? (h : headFault? text (lexemes text) = some place) :
    typeReader inText (keyword "type") text = .error place := by
  unfold headFault? at h
  split at h
  · next word start rest hls =>
    obtain ⟨after, hname, hafter⟩ := lifts_name.exists_of_ok (inTokens_name hls)
    have hkeyword := keyword_of_ok hname "type"
    split at h
    · next hword =>
      rw [if_pos hword] at hkeyword
      rw [typeReader, bind_of_ok hkeyword]
      refine lifts_namedReader.error_of_error ?_
      rw [hafter]
      split at h
      · cases h
      · next n start' rest hbrace =>
        obtain rfl := Option.some.inj h
        rw [namedReader, bind_of_ok (p := inTokens.name) rfl]
        exact bind_of_error (token_eq_error (by simpa using hbrace))
      · next hrest =>
        obtain rfl := Option.some.inj h
        exact bind_of_error (tokenName_eq_error (by simpa using hrest))
    · next hword =>
      obtain rfl := Option.some.inj h
      rw [if_neg hword] at hkeyword
      exact bind_of_error hkeyword
  · next hname =>
    obtain rfl := Option.some.inj h
    exact bind_of_error (keyword_of_error
      (lifts_name.error_of_error (tokenName_eq_error (by simpa using hname))) "type")

/-- Reading the tokens of schema text in one pass is reading the text by the grammar. -/
theorem read_eq_complete (text : List Char) :
    read text (lexemes text) = complete ((typeReader inText (keyword "type")).many1 text) := by
  cases hfault : headFault? text (lexemes text) with
  | some place =>
    rw [many1_of_error (typeReader_of_headFault? hfault), read, hfault]
    rfl
  | none =>
    rcases head_or_stops (lexemes text) with ⟨s, s', s'', n, rest, hls⟩ | ⟨before, after, hls, hstops⟩
    · obtain ⟨after, hname, hafter⟩ := lifts_name.exists_of_ok (inTokens_name hls)
      have hkeyword := keyword_of_ok hname "type"
      rw [if_pos rfl] at hkeyword
      have htype : typeReader inText (keyword "type") text = namedReader inText after := bind_of_ok hkeyword
      have hnamed : namedReader inTokens (lexemes after) = restOfType n [] rest := by
        rw [hafter]
        rfl
      rw [read, hfault, hls, typeDefs_head, typeDefs_some]
      cases hrest : restOfType n [] rest with
      | error fault =>
        rw [many1_of_error (htype.trans (lifts_namedReader.error_of_error (hnamed.trans hrest)))]
        rfl
      | ok result =>
        obtain ⟨type, behind⟩ := result
        obtain ⟨after', hread, rfl⟩ := lifts_namedReader.exists_of_ok (hnamed.trans hrest)
        have hmore := follows_typeReader.many (takes_typeReader takes_keyword) (takes_typeReader (takes_token _)) after'
        rw [many1_of_ok (htype.trans hread), complete_ok]
        refine (typeDefs_none (List.cons_ne_nil type []) _).trans ?_
        rw [Except.ok.inj hmore]
        rfl
    · rw [hls, hstops.headFault?_eq] at hfault
      cases hfault

theorem parse_eq_complete (text : List Char) :
    parse text = (complete ((typeReader inText (keyword "type")).many1 text)).mapError (SyntaxFault.locate text) := by
  rw [← read_eq_complete]
  rfl

end

end RouteQuery.SchemaText
