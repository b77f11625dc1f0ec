import RouteQuery.Proofs.DocumentFaults
import RouteQuery.Proofs.SchemaGrammar

/-! Where malformed schema text is said to be malformed: at the start of a definition or of a field that is not
complete, unless it is the first definition whose head is not. -/
namespace RouteQuery
namespace SchemaText

/-- What is behind the last closing brace. -/
def behindBrace : List Lexeme → Option (List Lexeme)
  | [] => none
  | l :: ls => (behindBrace ls).or (if l.token = .closeBrace then some ls else none)

/-- What is behind the complete fields of a definition. -/
def openField : List Lexeme → List Lexeme
  | ⟨.name _, _⟩ :: ⟨.colon, _⟩ :: ⟨.name _, _⟩ :: ⟨.bang, _⟩ :: rest => openField rest
  | ⟨.name _, _⟩ :: ⟨.colon, _⟩ :: ⟨.name _, _⟩ :: rest => openField rest
  | ls => ls

/-- Behind a complete definition, a fault is told where the next one starts. Before there is one, it is told at
the start of a field. -/
def givenUp (before : List Lexeme) : Option (List Char) :=
  ((behindBrace before).getD (openField (before.drop 3))).head?.map (·.start)

/-- Reads tokens of a text. -/
def read (text : List Char) (ls : List Lexeme) : Except (List Char) (List ObjectType) :=
  match headFault? text ls with
  | some place => .error place
  | none => typeDefs [] none ls

theorem startOf_append (ls after : List Lexeme) :
    startOf (ls ++ after) = (ls.head?.map (·.start)).getD (startOf after) := by
  cases ls <;> rfl

theorem behindBrace_suffix {ls behind : List Lexeme} (h : behindBrace ls = some behind) : behind <:+ ls := by
  induction ls with
  | nil => cases h
  | cons l ls ih =>
    rw [behindBrace, Option.or_eq_some_iff] at h
    rcases h with h | ⟨-, h⟩
    · exact (ih h).trans (List.suffix_cons l ls)
    · split at h
      · obtain rfl := Option.some.inj h
        exact List.suffix_cons l ls
      · cases h

theorem openField_suffix (ls : List Lexeme) : openField ls <:+ ls := by
  fun_induction openField ls with
  | case1 f s s' t s'' b rest ih => exact ih.trans (List.suffix_append [_, _, _, _] rest)
  | case2 f s s' t s'' rest _ ih => exact ih.trans (List.suffix_append [_, _, _] rest)
  | case3 ls => exact List.suffix_rfl

theorem of_givenUp {before : List Lexeme} {place : List Char} (h : givenUp before = some place) :
    ∃ l ∈ before, l.start = place := by
  obtain ⟨l, hl, rfl⟩ := Option.map_eq_some_iff.mp h
  refine ⟨l, List.IsSuffix.mem (List.mem_of_mem_head? hl) ?_, rfl⟩
  cases hbehind : behindBrace before with
  | some behind => exact behindBrace_suffix hbehind
  | none => exact (openField_suffix _).trans (List.drop_suffix 3 before)

/-! ### Heads -/

/-- Tokens that could start the head `type Name {` of a definition, but for what comes next. -/
inductive HeadStops : List Lexeme → List Lexeme → Prop
  | keyword {after : List Lexeme} (h : ∀ l ∈ after.head?, l.token ≠ .name "type") : HeadStops [] after
  | name {start : List Char} {after : List Lexeme} (h : ∀ l ∈ after.head?, ∀ n, l.token ≠ .name n) :
      HeadStops [⟨.name "type", start⟩] after
  | brace {start start' : List Char} {n : String} {after : List Lexeme}
      (h : ∀ l ∈ after.head?, l.token ≠ .openBrace) :
      HeadStops [⟨.name "type", start⟩, ⟨.name n, start'⟩] after

theorem token_ne_of_head? {ls : List Lexeme} {t : Token} (h : ¬∃ start rest, ls = ⟨t, start⟩ :: rest) :
    ∀ l ∈ ls.head?, l.token ≠ t := by
  rintro ⟨_, start⟩ hl rfl
  obtain ⟨rest, rfl⟩ := List.head?_eq_some_iff.mp hl
  exact h ⟨start, rest, rfl⟩

theorem token_ne_name_of_head? {ls : List Lexeme} (h : ¬∃ n start rest, ls = ⟨.name n, start⟩ :: rest) :
    ∀ l ∈ ls.head?, ∀ n, l.token ≠ .name n :=
  fun l hl n => token_ne_of_head? (fun ⟨start, rest, heq⟩ => h ⟨n, start, rest, heq⟩) l hl

theorem head_or_stops (ls : List Lexeme) :
    (∃ start start' start'' n rest,
      ls = ⟨.name "type", start⟩ :: ⟨.name n, start'⟩ :: ⟨.openBrace, start''⟩ :: rest) ∨
    ∃ before after, ls = before ++ after ∧ HeadStops before after := by
  by_cases hkeyword : ∃ start rest, ls = ⟨.name "type", start⟩ :: rest
  · obtain ⟨start, ls, rfl⟩ := hkeyword
    by_cases hname : ∃ n start' rest, ls = ⟨.name n, start'⟩ :: rest
    · obtain ⟨n, start', ls, rfl⟩ := hname
      by_cases hbrace : ∃ start'' rest, ls = ⟨.openBrace, start''⟩ :: rest
      · obtain ⟨start'', rest, rfl⟩ := hbrace
        exact .inl ⟨start, start', start'', n, rest, rfl⟩
      · exact .inr ⟨_, ls, rfl, .brace (token_ne_of_head? hbrace)⟩
    · exact .inr ⟨_, ls, rfl, .name (token_ne_name_of_head? hname)⟩
  · exact .inr ⟨_, ls, rfl, .keyword (token_ne_of_head? hkeyword)⟩

/-- Only a whole head is read where a definition starts. -/
theorem head_of_typeDefs {finished : List ObjectType} {l : Lexeme} {ls : List Lexeme}
    (h : (typeDefs finished none (l :: ls)).isOk = true) :
    l.token = .name "type" ∧ ∃ n start start' rest, ls = ⟨.name n, start⟩ :: ⟨.openBrace, start'⟩ :: rest := by
  obtain ⟨types, htypes⟩ := exists_of_isOk h
  obtain ⟨token, start⟩ := l
  unfold typeDefs at htypes
  dsimp only at htypes
  split at htypes
  · split at htypes
    · next hword => exact ⟨by rw [hword], _, _, _, _, rfl⟩
    · cases htypes
  · cases htypes

namespace HeadStops

variable {before after : List Lexeme}

theorem behindBrace_eq_none (h : HeadStops before after) : behindBrace before = none := by
  cases h <;> rfl

theorem stops (h : HeadStops before after) {finished : List ObjectType}
    (hends : after = [] → (typeDefs finished none before).isOk = false) :
    Stops (fun ls => (typeDefs finished none ls).isOk) before after where
  viable := by
    have hempty : ∀ start start' start'' last n, (typeDefs finished none
        [⟨.name "type", start⟩, ⟨.name n, start'⟩, ⟨.openBrace, start''⟩, ⟨.closeBrace, last⟩]).isOk = true := by
      simp [typeDefs, Except.isOk, Except.toBool]
    cases h with
    | keyword => exact ⟨_, hempty [] [] [] [] "a"⟩
    | name => exact ⟨[⟨.name "a", []⟩, ⟨.openBrace, []⟩, ⟨.closeBrace, []⟩], hempty _ _ _ _ _⟩
    | brace => exact ⟨[⟨.openBrace, []⟩, ⟨.closeBrace, []⟩], hempty _ _ _ _ _⟩
  refused := by
    rintro l rest rfl more
    rw [← Bool.not_eq_true]
    intro hread
    cases h with
    | keyword h => exact h l rfl (head_of_typeDefs hread).1
    | name h =>
      obtain ⟨-, n, start, start', rest, hrest⟩ := head_of_typeDefs hread
      exact h l rfl n (by rw [(List.cons.inj hrest).1])
    | brace h =>
      obtain ⟨-, n, start, start', rest, hrest⟩ := head_of_typeDefs hread
      exact h l rfl (by rw [(List.cons.inj (List.cons.inj hrest).2).1])
  unfinished := hends

/-- There is no text without a definition. -/
theorem stops_first (h : HeadStops before after) :
    Stops (fun ls => (typeDefs [] none ls).isOk) before after :=
  h.stops fun _ => by cases h <;> simp [typeDefs, Except.isOk, Except.toBool]

/-- The head of the first definition is refused at the offending token itself. -/
theorem headFault?_eq (h : HeadStops before after) (text : List Char) :
    headFault? text (before ++ after) = some (refusedAt givenUp text before after) := by
  cases h with
  | keyword h =>
    cases after with
    | nil => rfl
    | cons l rest =>
      obtain ⟨token, start⟩ := l
      cases token with
      | name word => exact if_neg fun hword => h _ rfl (by rw [hword])
      | _ => rfl
  | name h =>
    cases after with
    | nil => rfl
    | cons l rest =>
      obtain ⟨token, start⟩ := l
      cases token with
      | name n => exact absurd rfl (h _ rfl n)
      | _ => rfl
  | brace h =>
    cases after with
    | nil => rfl
    | cons l rest =>
      obtain ⟨token, start⟩ := l
      cases token with
      | openBrace => exact absurd rfl (h _ rfl)
      | _ => rfl

end HeadStops

/-! ### Fields -/

/-- Tokens that could start a field `name : type` or end a definition, but for what comes next. -/
inductive FieldStops : List Lexeme → List Lexeme → Prop
  | name {after : List Lexeme} (h : ∀ l ∈ after.head?, l.token ≠ .closeBrace ∧ ∀ n, l.token ≠ .name n) :
      FieldStops [] after
  | colon {f : String} {start : List Char} {after : List Lexeme} (h : ∀ l ∈ after.head?, l.token ≠ .colon) :
      FieldStops [⟨.name f, start⟩] after
  | type {f : String} {start start' : List Char} {after : List Lexeme}
      (h : ∀ l ∈ after.head?, ∀ n, l.token ≠ .name n) :
      FieldStops [⟨.name f, start⟩, ⟨.colon, start'⟩] after

theorem field_or_stops (ls : List Lexeme) :
    (∃ start rest, ls = ⟨.closeBrace, start⟩ :: rest) ∨
    (∃ f start start' t start'' rest,
      ls = ⟨.name f, start⟩ :: ⟨.colon, start'⟩ :: ⟨.name t, start''⟩ :: rest) ∨
    ∃ before after, ls = before ++ after ∧ FieldStops before after := by
  by_cases hclose : ∃ start rest, ls = ⟨.closeBrace, start⟩ :: rest
  · exact .inl hclose
  refine .inr ?_
  by_cases hname : ∃ f start rest, ls = ⟨.name f, start⟩ :: rest
  · obtain ⟨f, start, ls, rfl⟩ := hname
    by_cases hcolon : ∃ start' rest, ls = ⟨.colon, start'⟩ :: rest
    · obtain ⟨start', ls, rfl⟩ := hcolon
      by_cases htype : ∃ t start'' rest, ls = ⟨.name t, start''⟩ :: rest
      · obtain ⟨t, start'', rest, rfl⟩ := htype
        exact .inl ⟨f, start, start', t, start'', rest, rfl⟩
      · exact .inr ⟨_, ls, rfl, .type (token_ne_name_of_head? htype)⟩
    · exact .inr ⟨_, ls, rfl, .colon (token_ne_of_head? hcolon)⟩
  · exact .inr ⟨_, ls, rfl, .name fun l hl => ⟨token_ne_of_head? hclose l hl, token_ne_name_of_head? hname l hl⟩⟩

/-- Inside a definition either it ends or a whole field is read. -/
theorem field_of_typeDefs {finished : List ObjectType} {current : List Char × String × List (String × TypeRef)}
    {l : Lexeme} {ls : List Lexeme} (h : (typeDefs finished (some current) (l :: ls)).isOk = true) :
    l.token = .closeBrace ∨
      ∃ f start t start' rest, l.token = .name f ∧ ls = ⟨.colon, start⟩ :: ⟨.name t, start'⟩ :: rest := by
  obtain ⟨types, htypes⟩ := exists_of_isOk h
  obtain ⟨token, start⟩ := l
  unfold typeDefs at htypes
  dsimp only at htypes
  split at htypes
  · exact .inl rfl
  · exact .inr ⟨_, _, _, _, _, rfl, rfl⟩
  · exact .inr ⟨_, _, _, _, _, rfl, rfl⟩
  · cases htypes

namespace FieldStops

variable {before after : List Lexeme}

theorem behindBrace_eq_none (h : FieldStops before after) : behindBrace before = none := by
  cases h <;> rfl

theorem openField_eq (h : FieldStops before after) : openField before = before := by
  cases h <;> rfl

theorem stops (h : FieldStops before after) {finished : List ObjectType}
    {current : List Char × String × List (String × TypeRef)} :
    Stops (fun ls => (typeDefs finished (some current) ls).isOk) before after where
  viable := by
    cases h with
    | name => exact ⟨[⟨.closeBrace, []⟩], by simp [typeDefs, Except.isOk, Except.toBool]⟩
    | colon =>
      exact ⟨[⟨.colon, []⟩, ⟨.name "a", []⟩, ⟨.closeBrace, []⟩], by simp [typeDefs, Except.isOk, Except.toBool]⟩
    | type => exact ⟨[⟨.name "a", []⟩, ⟨.closeBrace, []⟩], by simp [typeDefs, Except.isOk, Except.toBool]⟩
  refused := by
    rintro l rest rfl more
    rw [← Bool.not_eq_true]
    intro hread
    cases h with
    | name h =>
      rcases field_of_typeDefs hread with hclose | ⟨f, _, _, _, _, hname, -⟩
      · exact (h l rfl).1 hclose
      · exact (h l rfl).2 f hname
    | colon h =>
      rcases field_of_typeDefs hread with hclose | ⟨_, _, _, _, _, -, hrest⟩
      · cases hclose
      · exact h l rfl (by rw [(List.cons.inj hrest).1])
    | type h =>
      rcases field_of_typeDefs hread with hclose | ⟨_, _, t, _, _, -, hrest⟩
      · cases hclose
      · exact h l rfl t (by rw [(List.cons.inj (List.cons.inj hrest).2).1])
  unfinished := by
    rintro rfl
    cases h <;> rfl

end FieldStops

/-! ### Definitions -/

section
variable {finished : List ObjectType} {n : String} {fields : List (String × TypeRef)}

theorem typeDefs_head (start s s' : List Char) (ls : List Lexeme) :
    typeDefs finished none (⟨.name "type", start⟩ :: ⟨.name n, s⟩ :: ⟨.openBrace, s'⟩ :: ls) =
      typeDefs finished (some (start, n, [])) ls := by
  rw [typeDefs, if_pos rfl]

theorem typeDefs_closeBrace (place start : List Char) (ls : List Lexeme) :
    typeDefs finished (some (place, n, fields)) (⟨.closeBrace, start⟩ :: ls) =
      typeDefs (⟨n, fields.reverse⟩ :: finished) none ls := by
  rw [typeDefs]

theorem typeDefs_nonNull (place : List Char) (f t : String) (s s' s'' s''' : List Char) (ls : List Lexeme) :
    typeDefs finished (some (place, n, fields))
        (⟨.name f, s⟩ :: ⟨.colon, s'⟩ :: ⟨.name t, s''⟩ :: ⟨.bang, s'''⟩ :: ls) =
      typeDefs finished (some (place, n, (f, ⟨t, true⟩) :: fields)) ls := by
  rw [typeDefs]

theorem typeDefs_nullable (place : List Char) (f t : String) (s s' s'' : List Char) {ls : List Lexeme}
    (h : ∀ l ∈ ls.head?, l.token ≠ .bang) :
    typeDefs finished (some (place, n, fields)) (⟨.name f, s⟩ :: ⟨.colon, s'⟩ :: ⟨.name t, s''⟩ :: ls) =
      typeDefs finished (some (place, n, (f, ⟨t, false⟩) :: fields)) ls := by
  rw [typeDefs]
  rintro s''' rest rfl
  exact h _ rfl rfl

end

@[simp] theorem behindBrace_cons_of_ne {l : Lexeme} (h : l.token ≠ .closeBrace) (ls : List Lexeme) :
    behindBrace (l :: ls) = behindBrace ls := by
  rw [behindBrace, if_neg h, Option.or_none]

theorem behindBrace_closeBrace (start : List Char) (ls : List Lexeme) :
    behindBrace (⟨.closeBrace, start⟩ :: ls) = some ((behindBrace ls).getD ls) := by
  rw [behindBrace, if_pos rfl]
  cases behindBrace ls <;> rfl

/-- The place that is told of a fault behind the tokens `before`, where reading has come to `current`. -/
def toldAt (finished : List ObjectType) (current : Option (List Char × String × List (String × TypeRef)))
    (before after : List Lexeme) : List Char :=
  match behindBrace before, current with
  | some behind, _ => startOf (behind ++ after)
  | none, none => startOf (before ++ after)
  | none, some (place, _) => if finished.isEmpty then startOf (openField before ++ after) else place

theorem stops_of_headless {finished : List ObjectType} {ls : List Lexeme}
    (hhead : ¬∃ start start' start'' n rest,
      ls = ⟨.name "type", start⟩ :: ⟨.name n, start'⟩ :: ⟨.openBrace, start''⟩ :: rest)
    (h : typeDefs finished none ls = .error (startOf ls)) :
    ∃ before after, ls = before ++ after ∧ Stops (fun ls => (typeDefs finished none ls).isOk) before after ∧
      startOf ls = toldAt finished none before after := by
  obtain ⟨before, after, rfl, hstops⟩ := (head_or_stops ls).resolve_left hhead
  refine ⟨before, after, rfl, hstops.stops fun hends => ?_, ?_⟩
  · subst hends
    rw [List.append_nil] at h
    rw [h]
    rfl
  · simp only [toldAt, hstops.behindBrace_eq_none]

theorem bang_not_head_of_typeDefs {finished : List ObjectType}
    {current : List Char × String × List (String × TypeRef)} {ls : List Lexeme}
    (h : (typeDefs finished (some current) ls).isOk = true) : ∀ l ∈ ls.head?, l.token ≠ .bang := by
  rintro l hl
  obtain ⟨rest, rfl⟩ := List.head?_eq_some_iff.mp hl
  rcases field_of_typeDefs h with htoken | ⟨f, _, _, _, _, htoken, -⟩ <;> simp [htoken]

/-- Reading definitions fails at the token that offends. The first head is left to `headFault?`. -/
theorem stops_of_typeDefs {finished : List ObjectType}
    {current : Option (List Char × String × List (String × TypeRef))} (hstate : finished = [] → current ≠ none)
    {ls : List Lexeme} {place : List Char} (h : typeDefs finished current ls = .error place) :
    ∃ before after, ls = before ++ after ∧ Stops (fun ls => (typeDefs finished current ls).isOk) before after ∧
      place = toldAt finished current before after := by
  fun_induction typeDefs finished current ls with
  | case1 finished hfinished => exact absurd rfl (hstate (List.isEmpty_iff.mp hfinished))
  | case2 => cases h
  | case3 finished first current =>
    obtain rfl := Except.error.inj h
    exact ⟨[], [], rfl, (FieldStops.name (by simp)).stops, rfl⟩
  | case4 finished start n s s' rest ih =>
    have hfinished : finished ≠ [] := fun hnil => hstate hnil rfl
    obtain ⟨before, after, rfl, hstops, rfl⟩ := ih (by simp) h
    refine ⟨⟨.name "type", start⟩ :: ⟨.name n, s⟩ :: ⟨.openBrace, s'⟩ :: before, after, rfl,
      hstops.behind_of_eq [⟨.name "type", start⟩, ⟨.name n, s⟩, ⟨.openBrace, s'⟩]
        (fun ls => congrArg Except.isOk (typeDefs_head start s s' ls)), ?_⟩
    cases hbehind : behindBrace before <;> simp [toldAt, hbehind, hfinished, startOf]
  | case5 finished start word n s s' rest hword =>
    obtain rfl := Except.error.inj h
    refine stops_of_headless ?_ (by rw [typeDefs, if_neg hword, startOf])
    rintro ⟨_, _, _, _, _, heq⟩
    exact hword (Token.name.inj (congrArg Lexeme.token (List.cons.inj heq).1))
  | case6 finished token start rest hhead =>
    obtain rfl := Except.error.inj h
    refine stops_of_headless ?_ (by rw [typeDefs, startOf]; exact hhead)
    rintro ⟨_, s, s', n, rest, heq⟩
    exact hhead _ n s s' rest (congrArg Lexeme.token (List.cons.inj heq).1) (List.cons.inj heq).2
  | case7 finished start first n fields rest ih =>
    obtain ⟨before, after, rfl, hstops, rfl⟩ := ih (by simp) h
    refine ⟨⟨.closeBrace, start⟩ :: before, after, rfl,
      hstops.behind_of_eq [⟨.closeBrace, start⟩]
        (fun ls => congrArg Except.isOk (typeDefs_closeBrace first start ls)), ?_⟩
    cases hbehind : behindBrace before <;> simp [toldAt, hbehind, behindBrace_closeBrace]
  | case8 finished s first n fields f s' t s'' last rest ih =>
    obtain ⟨before, after, rfl, hstops, rfl⟩ := ih (by simp) h
    refine ⟨⟨.name f, s⟩ :: ⟨.colon, s'⟩ :: ⟨.name t, s''⟩ :: ⟨.bang, last⟩ :: before, after, rfl,
      hstops.behind_of_eq [⟨.name f, s⟩, ⟨.colon, s'⟩, ⟨.name t, s''⟩, ⟨.bang, last⟩]
        (fun ls => congrArg Except.isOk (typeDefs_nonNull first f t s s' s'' last ls)), ?_⟩
    cases hbehind : behindBrace before <;> simp [toldAt, hbehind, openField]
  | case9 finished s first n fields f s' t s'' rest hbang ih =>
    obtain ⟨before, after, rfl, hstops, rfl⟩ := ih (by simp) h
    have hhead : ∀ l ∈ (before ++ after).head?, l.token ≠ .bang := by
      refine token_ne_of_head? ?_
      rintro ⟨start, rest, heq⟩
      exact hbang start rest heq
    have hnext : ∀ ls, (∀ l ∈ ls.head?, l.token ≠ .bang) → (typeDefs finished (some (first, n, fields))
        (⟨.name f, s⟩ :: ⟨.colon, s'⟩ :: ⟨.name t, s''⟩ :: ls)).isOk =
          (typeDefs finished (some (first, n, (f, ⟨t, false⟩) :: fields)) ls).isOk :=
      fun _ hls => congrArg Except.isOk (typeDefs_nullable first f t s s' s'' hls)
    refine ⟨⟨.name f, s⟩ :: ⟨.colon, s'⟩ :: ⟨.name t, s''⟩ :: before, after, rfl,
      hstops.behind [⟨.name f, s⟩, ⟨.colon, s'⟩, ⟨.name t, s''⟩] (fun ls hls => ?_)
        (fun ls hls hread => ?_), ?_⟩
    -- A mark would belong to the type that has just been read.
    · exact (hnext ls (bang_not_head_of_typeDefs hls)).trans hls
    · exact (hnext ls (hls ▸ hhead)).trans hread
    · have hfield : openField (⟨.name f, s⟩ :: ⟨.colon, s'⟩ :: ⟨.name t, s''⟩ :: before) = openField before := by
        rw [openField]
        rintro start rest rfl
        exact hhead _ rfl rfl
      cases hbehind : behindBrace before <;> simp [toldAt, hbehind, hfield]
  | case10 finished token start rest first n fields hclose hnonNull hfield =>
    obtain rfl := Except.error.inj h
    rcases field_or_stops (⟨token, start⟩ :: rest) with ⟨_, _, heq⟩ | ⟨f, _, s, t, s', rest, heq⟩ |
      ⟨before, after, heq, hstops⟩
    · exact absurd (congrArg Lexeme.token (List.cons.inj heq).1) hclose
    · have htoken := congrArg Lexeme.token (List.cons.inj heq).1
      exact (hfield f s t s' rest htoken (List.cons.inj heq).2).elim
    · refine ⟨before, after, heq, hstops.stops, ?_⟩
      simp [toldAt, hstops.behindBrace_eq_none, hstops.openField_eq, ← heq, startOf]

theorem isOk_read (text : List Char) (ls : List Lexeme) : (read text ls).isOk = (typeDefs [] none ls).isOk := by
  rcases head_or_stops ls with ⟨start, start', start'', n, rest, rfl⟩ | ⟨before, after, rfl, hstops⟩
  · rfl
  · rw [read, hstops.headFault?_eq, hstops.stops_first.accepts_append]
    rfl

/-- Schema text is refused at the start of what is not complete in it. -/
theorem stops_of_read {text : List Char} {ls : List Lexeme} {place : List Char}
    (h : read text ls = .error place) :
    ∃ before after, ls = before ++ after ∧ Stops (fun ls => (read text ls).isOk) before after ∧
      place = refusedAt givenUp text before after := by
  simp only [isOk_read]
  rcases head_or_stops ls with ⟨start, start', start'', n, rest, rfl⟩ | ⟨before, after, rfl, hstops⟩
  · have hread : typeDefs [] (some (start, n, [])) rest = .error place := by
      rw [← typeDefs_head start start' start'']
      exact h
    obtain ⟨before, after, rfl, hstops, rfl⟩ := stops_of_typeDefs (by simp) hread
    refine ⟨⟨.name "type", start⟩ :: ⟨.name n, start'⟩ :: ⟨.openBrace, start''⟩ :: before, after, rfl,
      hstops.behind_of_eq [⟨.name "type", start⟩, ⟨.name n, start'⟩, ⟨.openBrace, start''⟩]
        (fun ls => congrArg Except.isOk (typeDefs_head start start' start'' ls)), ?_⟩
    change _ = (givenUp _).getD (startOf after)
    cases hbehind : behindBrace before <;> simp [toldAt, givenUp, hbehind, startOf_append]
  · rw [read, hstops.headFault?_eq] at h
    exact ⟨before, after, rfl, hstops.stops_first, (Except.error.inj h).symm⟩

theorem isOk_read_iff (text : List Char) (ls : List Lexeme) :
    (read text ls).isOk = true ↔ ∃ types, IsTypeDefs (ls.map (·.token)) types := by
  rw [isOk_read]
  constructor
  · intro h
    obtain ⟨types, htypes⟩ := exists_of_isOk h
    obtain ⟨hne, htokens⟩ := tokens_of_typeDefs htypes
    exact ⟨types, isTypeDefs_iff.mpr ⟨hne, by simpa [opened] using htokens.symm⟩⟩
  · rintro ⟨types, h⟩
    obtain ⟨hne, htokens⟩ := isTypeDefs_iff.mp h
    rw [typeDefs_types htokens]
    simp [typeDefs, hne, Except.isOk, Except.toBool]

theorem parse_eq_error_iff {text : List Char} {fault : SyntaxFault} : parse text = .error fault ↔
    ∃ place, read text (lexemes text) = .error place ∧ fault = .locate text place := by
  change (read text (lexemes text)).mapError _ = _ ↔ _
  cases read text (lexemes text) <;> simp [Except.mapError, eq_comm]

end SchemaText

namespace Schema

theorem definitionFault?_ne_syntaxFault (types : List ObjectType) (seen : List String) (fault : SyntaxFault) :
    definitionFault? seen types ≠ some (.syntaxFault fault) := by
  fun_induction definitionFault? seen types with
  | case1 | case2 | case3 | case4 => simp
  | case5 seen t rest _ _ _ ih => exact ih

theorem referenceFault?_ne_syntaxFault (types : List ObjectType) (fault : SyntaxFault) :
    referenceFault? types ≠ some (.syntaxFault fault) := by
  intro h
  obtain ⟨t, -, ht⟩ := List.exists_of_findSome?_eq_some h
  obtain ⟨f, -, hf⟩ := List.exists_of_findSome?_eq_some ht
  dsimp only at hf
  split at hf <;> cases hf

/-- Types that do not fit together are no matter of syntax. -/
theorem compile_eq_syntaxFault_iff {text : List Char} {fault : SyntaxFault} :
    compile text = .error (.syntaxFault fault) ↔ SchemaText.parse text = .error fault := by
  rw [compile]
  cases hparse : SchemaText.parse text with
  | error other => simp
  | ok types =>
    have hne : ofTypes types ≠ .error (.syntaxFault fault) := by
      unfold ofTypes
      split
      · next other hother =>
        rintro ⟨⟩
        exact definitionFault?_ne_syntaxFault types [] fault hother
      · split
        · next other hother =>
          rintro ⟨⟩
          exact referenceFault?_ne_syntaxFault types fault hother
        · split <;> simp
    simp [hne]

/-- Malformed schema text is told at its offending token, unless a field or a definition behind the first one
has begun in front of that. -/
theorem locatesFaults (text : List Char) : LocatesFaults (fun fault => compile text = .error (.syntaxFault fault))
    (fun ts => ∃ types, IsTypeDefs ts types) SchemaText.givenUp text :=
  .of_reader (fun _ => compile_eq_syntaxFault_iff.trans SchemaText.parse_eq_error_iff)
    (SchemaText.isOk_read_iff text) (fun _ _ => SchemaText.stops_of_read) fun _ _ => SchemaText.of_givenUp

end Schema
/-! ### Queries and schema text -/

/-- In queries and in schema text there is one token that offends, if they are malformed, and they are refused
there or where reading has been given up before. Lines and columns count from one. -/
theorem malformed_refused_at (text : List Char) :
    LocatesFaults (Document.parse text = .error ·) (fun ts => ∃ d, IsDocument ts d) Document.givenUp text ∧
    LocatesFaults (fun fault => Schema.compile text = .error (.syntaxFault fault))
      (fun ts => ∃ types, IsTypeDefs ts types) SchemaText.givenUp text ∧
    ∀ (earlier : List (List Char)) (read rest : List Char), text = Text.ended earlier ++ (read ++ rest) →
      (∀ line ∈ earlier, '\n' ∉ line) → '\n' ∉ read →
      SyntaxFault.locate text rest = ⟨(Text.trimLeft rest).head?, earlier.length + 1, read.length + 1⟩ := by
  refine ⟨Document.locatesFaults text, Schema.locatesFaults text, ?_⟩
  rintro earlier read rest rfl hearlier hread
  exact SyntaxFault.locate_of_ended hearlier hread

/-- A set in an operation in which a colon stands for a brace. -/
def colonInSet : List Char := "query \x7b a : b \x7d".toList

theorem offends_colonInSet : Offends (fun ts => ∃ d, IsDocument ts d) colonInSet
    [⟨.name "query", colonInSet⟩, ⟨.openBrace, "\x7b a : b \x7d".toList⟩, ⟨.name "a", "a : b \x7d".toList⟩]
    [⟨.colon, ": b \x7d".toList⟩, ⟨.name "b", "b \x7d".toList⟩, ⟨.closeBrace, "\x7d".toList⟩] := by
  refine Stops.offends ⟨⟨[⟨.closeBrace, []⟩], rfl⟩, ?_, by simp⟩ (by cbv) (Document.isOk_ofLexemes_iff colonInSet)
  rintro _ _ ⟨⟩ more
  rfl

/-- A field without its colon, in the second line. -/
def colonlessField : List Char := "type Query \x7b\n  a String\n\x7d".toList

theorem offends_colonlessField : Offends (fun ts => ∃ types, IsTypeDefs ts types) colonlessField
    [⟨.name "type", colonlessField⟩, ⟨.name "Query", "Query \x7b\n  a String\n\x7d".toList⟩,
      ⟨.openBrace, "\x7b\n  a String\n\x7d".toList⟩, ⟨.name "a", "a String\n\x7d".toList⟩]
    [⟨.name "String", "String\n\x7d".toList⟩, ⟨.closeBrace, "\x7d".toList⟩] := by
  refine Stops.offends ⟨⟨[⟨.colon, []⟩, ⟨.name "a", []⟩, ⟨.closeBrace, []⟩], rfl⟩, ?_, by simp⟩ (by cbv)
    (SchemaText.isOk_read_iff colonlessField)
  rintro _ _ ⟨⟩ more
  rfl

/-- The colon is told where it stands. The type in place of a colon is not, but the field that it ends up in. -/
theorem colons_refused_at :
    (∃ before after, Offends (fun ts => ∃ d, IsDocument ts d) colonInSet before after ∧
      startOf after = ": b \x7d".toList ∧ Document.parse colonInSet = .error ⟨some ':', 1, 11⟩) ∧
    (∃ before after, Offends (fun ts => ∃ types, IsTypeDefs ts types) colonlessField before after ∧
      startOf after = "String\n\x7d".toList ∧
      Schema.compile colonlessField = .error (.syntaxFault ⟨some 'a', 2, 3⟩)) ∧
    SyntaxFault.locate colonlessField "String\n\x7d".toList = ⟨some 'S', 2, 5⟩ := by
  obtain ⟨hqueries, -, -⟩ := malformed_refused_at colonInSet
  obtain ⟨-, hschemas, hplaces⟩ := malformed_refused_at colonlessField
  refine ⟨⟨_, _, offends_colonInSet, rfl, (hqueries.refuses_iff _).mpr ⟨_, _, offends_colonInSet, by cbv⟩⟩,
    ⟨_, _, offends_colonlessField, rfl, (hschemas.refuses_iff _).mpr ⟨_, _, offends_colonlessField, by cbv⟩⟩, ?_⟩
  exact hplaces ["type Query \x7b".toList] "  a ".toList "String\n\x7d".toList (by decide) (by simp) (by simp)

/-- A set inside another one, and nothing behind it. -/
def unclosed : List Char := "\x7b a \x7b b \x7d".toList

/-- The end of the text offends, and the text is refused at its start. -/
theorem unclosed_refused_at_start : ∃ before,
    Offends (fun ts => ∃ d, IsDocument ts d) unclosed before [] ∧
    Document.parse unclosed = .error ⟨some '{', 1, 1⟩ ∧
    SyntaxFault.locate unclosed (startOf []) = ⟨none, 1, 10⟩ := by
  refine ⟨lexemes unclosed, ?_, by cbv, by cbv⟩
  exact Stops.offends ⟨⟨[⟨.closeBrace, []⟩], by cbv⟩, by simp, fun _ => by cbv⟩ (List.append_nil _).symm
    (Document.isOk_ofLexemes_iff unclosed)

end RouteQuery
