import RouteQuery.Http.Uri
import RouteQuery.Proofs.Words

/-! Request targets as text: what was read from a target reads back from the text that it is written
as, and so does what is left of it when its path loses a leading part. -/
namespace RouteQuery.Http.Uri
open Text

def queryText : Option (List Char) → List Char
  | some query => '?' :: query
  | none => []

/-- A path and a query as they stand in a target. -/
def text (u : Uri) : List Char := u.path ++ queryText u.query

/-- Made of characters that may stand in a path and in a query. -/
structure Legible (u : Uri) : Prop where
  path : ∀ c ∈ u.path, isPathChar c = true ∧ c ≠ '?' ∧ c ≠ '#'
  query : ∀ query ∈ u.query, ∀ c ∈ query, isQueryChar c = true ∧ c ≠ '#'

def size (cs : List Char) : Nat := (String.ofList cs).utf8ByteSize

section
variable {cs ds : List Char} {u : Uri}

theorem size_append (cs ds : List Char) : size (cs ++ ds) = size cs + size ds := by
  rw [size, String.ofList_append, String.utf8ByteSize_append, size, size]

theorem size_singleton (c : Char) : size [c] = c.utf8Size := by
  rw [size, ← String.singleton_eq_ofList, String.utf8ByteSize_singleton]

theorem size_pos_of_ne_nil (h : cs ≠ []) : 0 < size cs := by
  obtain ⟨c, ds, rfl⟩ := List.exists_cons_of_ne_nil h
  rw [← List.singleton_append, size_append, size_singleton]
  exact Nat.add_pos_left c.utf8Size_pos _

theorem size_le_of_isPrefix (h : cs <+: ds) : size cs ≤ size ds := by
  obtain ⟨rest, rfl⟩ := h
  rw [size_append]
  exact Nat.le_add_right _ _

theorem size_le_of_suffix (h : cs <:+ ds) : size cs ≤ size ds := by
  obtain ⟨front, rfl⟩ := h
  rw [size_append]
  exact Nat.le_add_left _ _

/-- A character of the path of a target. -/
def inPath (c : Char) : Bool := c != '?' && c != '#'

/-- The query that stands behind a path. -/
def queryOf : List Char → Option (List Char)
  | '?' :: rest => some (rest.takeWhile (· ≠ '#'))
  | _ => none

theorem ofPathAndQuery?_eq (cs : List Char) :
    ofPathAndQuery? cs =
      if (cs.takeWhile inPath).all isPathChar && (queryOf (cs.dropWhile inPath)).all (·.all isQueryChar) then
        some ⟨if (cs.takeWhile inPath).isEmpty then ['/'] else cs.takeWhile inPath,
          queryOf (cs.dropWhile inPath)⟩
      else none := by
  have hdrop : cs.drop (cs.takeWhile inPath).length = cs.dropWhile inPath := by
    calc cs.drop (cs.takeWhile inPath).length
        = (cs.takeWhile inPath ++ cs.dropWhile inPath).drop (cs.takeWhile inPath).length := by
          rw [List.takeWhile_append_dropWhile]
      _ = cs.dropWhile inPath := List.drop_left
  rw [← hdrop]
  rfl

theorem queryText_queryOf_isPrefix (cs : List Char) : queryText (queryOf cs) <+: cs := by
  unfold queryOf
  split
  · exact (List.cons_prefix_cons).mpr ⟨rfl, List.takeWhile_prefix _⟩
  · exact List.nil_prefix

theorem ne_hash_of_queryOf {query : List Char} (h : queryOf cs = some query) {c : Char} (hc : c ∈ query) :
    c ≠ '#' := by
  unfold queryOf at h
  split at h
  · obtain rfl := Option.some.inj h
    simpa using List.mem_takeWhile_imp hc
  · cases h

theorem legible_of_ofPathAndQuery? (h : ofPathAndQuery? cs = some u) : u.Legible := by
  rw [ofPathAndQuery?_eq] at h
  split_ifs at h with hall hempty
  all_goals
    obtain rfl := Option.some.inj h
    rw [Bool.and_eq_true, List.all_eq_true, Option.all_eq_true] at hall
    refine ⟨fun c hc => ?_, fun query hquery c hc =>
      ⟨List.all_eq_true.mp (hall.2 query hquery) c hc, ne_hash_of_queryOf hquery hc⟩⟩
  · obtain rfl := List.mem_singleton.mp hc
    decide
  · have hpath : inPath c = true := List.mem_takeWhile_imp hc
    exact ⟨hall.1 c hc, by simpa [inPath] using hpath⟩

/-- A path that is not there is written as a slash; all else is written as it was read. -/
theorem size_text_le (h : ofPathAndQuery? cs = some u) :
    size u.text ≤ size cs + 1 ∧ (cs.head? = some '/' → size u.text ≤ size cs) := by
  have hstart : cs.takeWhile inPath ++ queryText (queryOf (cs.dropWhile inPath)) <+: cs := by
    calc cs.takeWhile inPath ++ queryText (queryOf (cs.dropWhile inPath))
        <+: cs.takeWhile inPath ++ cs.dropWhile inPath :=
          (List.prefix_append_right_inj _).mpr (queryText_queryOf_isPrefix _)
      _ = cs := List.takeWhile_append_dropWhile
  have hsize := size_le_of_isPrefix hstart
  rw [ofPathAndQuery?_eq] at h
  split_ifs at h with hall hempty <;> obtain rfl := Option.some.inj h
  · rw [List.isEmpty_iff] at hempty
    rw [hempty, List.nil_append] at hsize
    refine ⟨?_, fun hslash => ?_⟩
    · have hone : size ['/'] = 1 := size_singleton '/'
      rw [text, size_append, hone, Nat.add_comm]
      exact Nat.succ_le_succ hsize
    · obtain ⟨rest, rfl⟩ := List.head?_eq_some_iff.mp hslash
      cases hempty
  · exact ⟨Nat.le_succ_of_le hsize, fun _ => hsize⟩

theorem suffix_of_afterScheme? {rest : List Char} (h : afterScheme? cs = some rest) : rest <:+ cs := by
  unfold afterScheme? at h
  dsimp only at h
  split at h
  · next hdrop =>
    obtain rfl := Option.some.inj h
    have hbehind := List.drop_suffix (cs.takeWhile
      fun c => c.isAlphanum || c == '+' || c == '-' || c == '.').length cs
    rw [hdrop] at hbehind
    exact List.IsSuffix.trans (List.suffix_append [':', '/', '/'] _) hbehind
  · cases h

theorem append_of_takeAuthority? {authority rest : List Char}
    (h : takeAuthority? cs = some (authority, rest)) : authority ++ rest = cs := by
  obtain ⟨scan, -, h⟩ := Option.bind_eq_some_iff.mp h
  split_ifs at h
  obtain ⟨rfl, rfl⟩ := Prod.mk.inj (Option.some.inj h)
  exact List.takeWhile_append_dropWhile

/-- What a target is read as is legible, and no longer than the target. -/
theorem of_parse?_eq_some (h : parse? cs = some u) (hslash : u.path.head? = some '/') :
    u.Legible ∧ size u.text ≤ maxSize := by
  unfold parse? at h
  split_ifs at h with hsize
  have hsize : size cs ≤ maxSize := Nat.le_of_not_lt hsize
  split at h
  · cases h
  · obtain rfl := Option.some.inj h
    cases hslash
  · exact ⟨legible_of_ofPathAndQuery? h, Nat.le_trans ((size_text_le h).2 rfl) hsize⟩
  · split at h
    · next rest hrest =>
      split_ifs at h
      · cases h
      obtain ⟨⟨authority, rest'⟩, hauthority, h⟩ := Option.bind_eq_some_iff.mp h
      dsimp only at h
      split_ifs at h with hempty
      refine ⟨legible_of_ofPathAndQuery? h, ?_⟩
      -- the slash that stands for a missing path takes no more than the authority did
      have hauthority := append_of_takeAuthority? hauthority
      have hpos : 0 < size authority := size_pos_of_ne_nil (by simpa using hempty)
      have hrest := size_le_of_suffix (suffix_of_afterScheme? hrest)
      rw [← hauthority, size_append] at hrest
      have htext := (size_text_le h).1
      omega
    · obtain ⟨⟨authority, rest⟩, -, h⟩ := Option.bind_eq_some_iff.mp h
      dsimp only at h
      split_ifs at h
      obtain rfl := Option.some.inj h
      cases hslash

/-- A legible target of its size is read as what it was written from. -/
theorem parse?_text (hu : u.Legible) (hslash : u.path.head? = some '/') (hsize : size u.text ≤ maxSize) :
    parse? u.text = some u := by
  obtain ⟨path, query⟩ := u
  obtain ⟨rest, rfl⟩ := List.head?_eq_some_iff.mp hslash
  have hparse : parse? (text ⟨'/' :: rest, query⟩) = ofPathAndQuery? (text ⟨'/' :: rest, query⟩) := by
    unfold parse?
    rw [size] at hsize
    rw [if_neg (Nat.not_lt.mpr hsize)]
    rfl
  have hstop : StopsAt inPath (queryText query) := by
    cases query with
    | none => exact stopsAt_nil _
    | some query => exact stopsAt_cons.mpr (by decide)
  have hpath : ∀ c ∈ '/' :: rest, inPath c = true := by
    intro c hc
    have := hu.path c hc
    simpa [inPath] using this.2
  have htake : (text ⟨'/' :: rest, query⟩).takeWhile inPath = '/' :: rest := by
    rw [text, takeWhile_append_stop hstop, List.takeWhile_eq_self_iff.mpr hpath]
  have hdrop : (text ⟨'/' :: rest, query⟩).dropWhile inPath = queryText query := by
    rw [text, dropWhile_append_stop hstop, List.dropWhile_eq_nil_iff.mpr hpath, List.nil_append]
  have hquery : queryOf (queryText query) = query := by
    cases query with
    | none => rfl
    | some query =>
      have hhash : ∀ c ∈ query, decide (c ≠ '#') = true :=
        fun c hc => by simpa using (hu.query query rfl c hc).2
      simp only [queryText, queryOf, List.takeWhile_eq_self_iff.mpr hhash]
  have hlegible : (('/' :: rest).all isPathChar && query.all (·.all isQueryChar)) = true := by
    rw [Bool.and_eq_true, List.all_eq_true, Option.all_eq_true]
    exact ⟨fun c hc => (hu.path c hc).1,
      fun query hquery => List.all_eq_true.mpr fun c hc => (hu.query query hquery c hc).1⟩
  rw [hparse, ofPathAndQuery?_eq, htake, hdrop, hquery, if_pos hlegible]
  rfl

/-- What is left of a target that was read, when its path loses a leading part, reads back. -/
theorem parse?_text_of_suffix {target front rest : List Char} (h : parse? target = some u)
    (hpath : u.path = front ++ rest) (hslash : u.path.head? = some '/')
    (hrest : rest = [] ∨ rest.head? = some '/') :
    parse? (text ⟨if rest = [] then ['/'] else rest, u.query⟩) =
      some ⟨if rest = [] then ['/'] else rest, u.query⟩ := by
  obtain ⟨hlegible, hsize⟩ := of_parse?_eq_some h hslash
  rw [text, size_append] at hsize
  by_cases hempty : rest = []
  · have hone : size ['/'] ≤ size u.path := by
      obtain ⟨cs, hcs⟩ := List.head?_eq_some_iff.mp hslash
      exact size_le_of_isPrefix ⟨cs, hcs.symm⟩
    have hroot : ∀ c ∈ ['/'], isPathChar c = true ∧ c ≠ '?' ∧ c ≠ '#' :=
      List.forall_mem_singleton.mpr (by decide)
    rw [if_pos hempty]
    refine parse?_text ⟨hroot, hlegible.query⟩ rfl ?_
    rw [text, size_append]
    exact Nat.le_trans (Nat.add_le_add_right hone _) hsize
  · have hle : size rest ≤ size u.path := size_le_of_suffix ⟨front, hpath.symm⟩
    rw [if_neg hempty]
    refine parse?_text ⟨fun c hc => hlegible.path c (hpath ▸ List.mem_append_right _ hc), hlegible.query⟩
      (hrest.resolve_left hempty) ?_
    rw [text, size_append]
    exact Nat.le_trans (Nat.add_le_add_right hle _) hsize

end
end RouteQuery.Http.Uri
