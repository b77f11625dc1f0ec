import RouteQuery.Dispatch

/-! The body parsers around the entries: the first one for the type of a body decides, and it alone. -/
namespace RouteQuery.App
open Http

/-- Any way of a request with body parsers around it, the first one outermost. -/
def around (parsers : List BodyParser) (next : Request → Action Response) : Request → Action Response :=
  parsers.foldr parsing next

theorem respond_eq_around (w : Workspace) (app : App) :
    app.respond w = around app.parsers (dispatch w app.entries) := List.foldl_reverse

section
variable {parser : BodyParser} {parsers : List BodyParser} {next : Request → Action Response}
  {req : Request}

theorem parsing_of_not_reads (h : reads parser req = false) : parsing parser next req = next req := by
  simp [parsing, h]

/-- A parsed request is not looked at again. -/
theorem around_of_parsed (h : req.parsed.isSome = true) : around parsers next req = next req := by
  induction parsers with
  | nil => rfl
  | cons parser rest ih =>
    have hpassed : around (parser :: rest) next req = around rest next req := by
      simp [around, parsing, h]
    rw [hpassed, ih]

theorem around_of_not_reads (h : ∀ p ∈ parsers, reads p req = false) :
    around parsers next req = next req := by
  induction parsers with
  | nil => rfl
  | cons parser rest ih =>
    simp only [List.mem_cons, forall_eq_or_imp] at h
    have hpassed : around (parser :: rest) next req = around rest next req :=
      parsing_of_not_reads h.1
    rw [hpassed, ih h.2]

/-- The parsers before the first one that reads a request let it through, and those behind it do
not touch it any more. -/
theorem around_of_reads {before after : List BodyParser} (hfresh : req.parsed = none)
    (hbefore : ∀ p ∈ before, reads p req = false) (hreads : reads parser req = true) :
    around (before ++ parser :: after) next req =
      match parser.parse req.declaredLength? req.body with
      | .ok parsed => next { req with parsed := some parsed }
      | .error fault => pure (.text fault.status fault.message.toList) := by
  have hskip : around (before ++ parser :: after) next req =
      around before (around (parser :: after) next) req := by
    simp only [around, List.foldr_append]
  have hparse : around (parser :: after) next req = parsing parser (around after next) req := rfl
  rw [hskip, around_of_not_reads hbefore, hparse, parsing, hfresh, hreads]
  cases hbody : parser.parse req.declaredLength? req.body with
  | error fault => rfl
  | ok parsed => exact around_of_parsed rfl

theorem respond_of_reads (w : Workspace) (entries : List RouteEntry) {before : List BodyParser}
    (after : List BodyParser) (hfresh : req.parsed = none)
    (hbefore : ∀ p ∈ before, reads p req = false) (hreads : reads parser req = true) :
    respond w ⟨entries, before ++ parser :: after⟩ req =
      match parser.parse req.declaredLength? req.body with
      | .ok parsed => dispatch w entries { req with parsed := some parsed }
      | .error fault => pure (.text fault.status fault.message.toList) := by
  rw [respond_eq_around]
  exact around_of_reads hfresh hbefore hreads

end

/-- The body is larger than the parser allows, or is said to be. -/
def Exceeds (parser : BodyParser) (req : Request) : Prop :=
  (∃ length, req.declaredLength? = some length ∧ parser.options.limit < length) ∨
    parser.options.limit < req.body.length

theorem parse_of_exceeds {parser : BodyParser} {req : Request} (h : Exceeds parser req) :
    parser.parse req.declaredLength? req.body = .error .tooLarge := by
  have htoo : (req.declaredLength?.any (parser.options.limit < ·) ||
      decide (parser.options.limit < req.body.length)) = true := by
    rcases h with ⟨length, hlength, hlt⟩ | hlt
    · simp [hlength, hlt]
    · simp [hlt]
  rw [BodyParser.parse, if_pos htoo]

theorem parse_of_not_exceeds {parser : BodyParser} {req : Request} (h : ¬Exceeds parser req) :
    parser.parse req.declaredLength? req.body = parser.read req.body := by
  rw [Exceeds, not_or] at h
  obtain ⟨hdeclared, hbody⟩ := h
  have hfits : (req.declaredLength?.any (parser.options.limit < ·) ||
      decide (parser.options.limit < req.body.length)) = false := by
    rw [Bool.or_eq_false_iff]
    refine ⟨?_, decide_eq_false hbody⟩
    cases hlength : req.declaredLength? with
    | none => rfl
    | some length => exact decide_eq_false fun hlt => hdeclared ⟨length, hlength, hlt⟩
  rw [BodyParser.parse, if_neg (by simp [hfits])]

theorem status_of_read {parser : BodyParser} {body : Text.Bytes} {fault : BodyFault}
    (h : parser.read body = .error fault) : fault.status = 400 := by
  have hread : fault ≠ .tooLarge := by
    rintro rfl
    unfold BodyParser.read BodyParser.readJson at h
    split at h
    · split at h
      · cases h
      · split at h
        · cases h
        · split at h <;> cases h
    · cases h
    · split at h <;> cases h
    · cases h
  cases fault <;> first | rfl | exact absurd rfl hread

/-- Before any entry is tried, whatever the entries are, a request is answered with this status. -/
def Refuses (w : Workspace) (parsers : List BodyParser) (req : Request) (status : Nat) : Prop :=
  ∃ response : Response, response.status = status ∧
    ∀ entries, respond w ⟨entries, parsers⟩ req = pure response

/-- The first parser that reads the type of a body decides what becomes of the request, and no other
parser plays a part. Where there is none, the request goes to the entries as it is. Requests come in
unparsed: nothing but these parsers sets what was parsed. -/
theorem respond_of_first_reader (w : Workspace) (app : App) {req : Request}
    (hfresh : req.parsed = none) :
    ((∀ p ∈ app.parsers, reads p req = false) → app.respond w req = dispatch w app.entries req) ∧
    ∀ before parser after, app.parsers = before ++ parser :: after →
      (∀ p ∈ before, reads p req = false) → reads parser req = true →
      (Exceeds parser req → Refuses w app.parsers req 413) ∧
      (¬Exceeds parser req → ∀ fault, parser.read req.body = .error fault →
        Refuses w app.parsers req 400) ∧
      (¬Exceeds parser req → ∀ parsed, parser.read req.body = .ok parsed →
        app.respond w req = dispatch w app.entries { req with parsed := some parsed }) ∧
      app.respond w req = respond w { app with parsers := [parser] } req := by
  constructor
  · intro hnone
    rw [respond_eq_around, around_of_not_reads hnone]
  · obtain ⟨entries, parsers⟩ := app
    rintro before parser after rfl hbefore hreads
    have hfirst := fun entries => respond_of_reads w entries after hfresh hbefore hreads
    have halone := respond_of_reads w entries [] hfresh (List.forall_mem_nil _) hreads
    refine ⟨fun hlarge => ?_, fun hfits fault hread => ?_, fun hfits parsed hread => ?_,
      (hfirst entries).trans halone.symm⟩
    · rw [parse_of_exceeds hlarge] at hfirst
      exact ⟨_, rfl, hfirst⟩
    · rw [parse_of_not_exceeds hfits, hread] at hfirst
      exact ⟨_, status_of_read hread, hfirst⟩
    · have hdecided := hfirst entries
      rw [parse_of_not_exceeds hfits, hread] at hdecided
      exact hdecided

/-- Two parsers for plain text, the first of which takes no more than three bytes. -/
def shortText : List BodyParser :=
  [⟨.raw, { limit := 3, contentType := some "text/*" }⟩, ⟨.text, {}⟩]

def plainText (body : String) : Request where
  method := "POST"
  uri := ⟨['/'], none⟩
  headers := [("content-type", Response.bytesOf "Text/Plain; charset=utf-8")]
  body := Text.toUtf8 body.toList

theorem respond_shortText :
    Refuses ⟨"/", []⟩ shortText (plainText "four") 413 ∧
      ∀ entries, respond ⟨"/", []⟩ ⟨entries, shortText⟩ (plainText "two") =
        dispatch ⟨"/", []⟩ entries { plainText "two" with parsed := some (.raw [116, 119, 111]) } := by
  have hreads : ∀ body, reads ⟨.raw, { limit := 3, contentType := some "text/*" }⟩
      (plainText body) = true := fun _ => show reads _ (plainText "") = true by decide +kernel
  have hfresh : ∀ body, (plainText body).parsed = none := fun _ => rfl
  constructor
  · have h := (respond_of_first_reader ⟨"/", []⟩ ⟨[], shortText⟩ (hfresh "four")).2
      [] _ _ rfl (by simp) (hreads _)
    exact h.1 (.inr (by decide))
  · intro entries
    have h := (respond_of_first_reader ⟨"/", []⟩ ⟨entries, shortText⟩ (hfresh "two")).2
      [] _ _ rfl (by simp) (hreads _)
    refine h.2.2.1 ?_ _ rfl
    rintro (⟨length, hlength, -⟩ | hlong)
    · cases hlength
    · exact absurd hlong (by decide)

end RouteQuery.App
