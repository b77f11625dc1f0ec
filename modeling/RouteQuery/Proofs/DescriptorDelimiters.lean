import Mathlib.Data.List.DropRight
import RouteQuery.Descriptor
import RouteQuery.Proofs.Words

/-! The delimiters of a descriptor. Its value is the word before the first delimiter that has a word right
before it, but its arguments are what follows the first delimiter of all. -/
namespace RouteQuery.Descriptor
open Text

/-- A line that opens with `@` and a name, the longest run of word characters, and its tail. -/
structure Named (line : List Char) (name : String) (tail : List Char) : Prop where
  line_eq : line = '@' :: (name.toList ++ tail)
  nonempty : name.toList ≠ []
  word : ∀ c ∈ name.toList, isWordChar c = true
  longest : StopsAt isWordChar tail

/-- What stands before a delimiter of a text and what stands after it. -/
def Parted (cs before after : List Char) : Prop :=
  ∃ delimiter, isDelimiter delimiter = true ∧ cs = before ++ delimiter :: after

/-- The run of word characters at the end of a text. -/
def lastWord (cs : List Char) : List Char := cs.rtakeWhile isWordChar

/-- Some delimiter has a word right before it. -/
def HasValue (cs : List Char) : Prop := ∃ before after, Parted cs before after ∧ lastWord before ≠ []

/-- The first delimiter of a text. -/
structure FirstDelimiter (cs before after : List Char) : Prop where
  parted : Parted cs before after
  first : ∀ c ∈ before, isDelimiter c = false

/-- The first delimiter of a text that has a word right before it. -/
structure FirstValue (cs before after : List Char) : Prop where
  parted : Parted cs before after
  word : lastWord before ≠ []
  first : ¬HasValue before

/-- The rule of one delimiter: the first delimiter of the tail has the value right before it and the
arguments behind it, and without it or without a word before it there is no descriptor. -/
inductive OneDelimiter (name : String) (tail : List Char) : Except Fault Descriptor → Prop
  | split {before after : List Char} (delimiter : FirstDelimiter tail before after)
      (value : lastWord before ≠ []) :
      OneDelimiter name tail (.ok ⟨name, String.ofList (lastWord before), arguments after⟩)
  | noWord {before after : List Char} (delimiter : FirstDelimiter tail before after)
      (empty : lastWord before = []) : OneDelimiter name tail (.error (.valuelessDescriptor name))
  | noDelimiter (none : ∀ c ∈ tail, isDelimiter c = false) :
      OneDelimiter name tail (.error (.valuelessDescriptor name))

/-! ### Places of delimiters -/

theorem Parted.exists_delimiter {cs before after : List Char} (h : Parted cs before after) :
    ∃ c ∈ cs, isDelimiter c = true := by
  obtain ⟨c, hc, rfl⟩ := h
  exact ⟨c, by simp, hc⟩

theorem not_hasValue_of_none {cs : List Char} (h : ∀ c ∈ cs, isDelimiter c = false) : ¬HasValue cs := by
  rintro ⟨before, after, hparted, -⟩
  obtain ⟨c, hc, hdelimiter⟩ := hparted.exists_delimiter
  exact absurd hdelimiter (by simp [h c hc])

theorem exists_parted_cons {c : Char} {cs : List Char} {P : List Char → Prop} :
    (∃ before after, Parted (c :: cs) before after ∧ P before) ↔
      (isDelimiter c = true ∧ P []) ∨ ∃ before after, Parted cs before after ∧ P (c :: before) := by
  constructor
  · rintro ⟨_ | ⟨b, before⟩, after, ⟨d, hd, hcs⟩, hP⟩
    · obtain ⟨rfl, rfl⟩ := List.cons.inj hcs
      exact .inl ⟨hd, hP⟩
    · obtain ⟨rfl, rfl⟩ := List.cons.inj hcs
      exact .inr ⟨before, after, ⟨d, hd, rfl⟩, hP⟩
  · rintro (⟨hc, hP⟩ | ⟨before, after, ⟨d, hd, rfl⟩, hP⟩)
    · exact ⟨[], cs, ⟨c, hc, rfl⟩, hP⟩
    · exact ⟨c :: before, after, ⟨d, hd, rfl⟩, hP⟩

theorem hasValue_append_singleton {cs : List Char} {c : Char} :
    HasValue (cs ++ [c]) ↔ HasValue cs ∨ isDelimiter c = true ∧ lastWord cs ≠ [] := by
  constructor
  · rintro ⟨before, after, ⟨d, hd, hcs⟩, hword⟩
    rcases List.eq_nil_or_concat after with rfl | ⟨after, last, rfl⟩
    · obtain ⟨rfl, hc⟩ := List.append_inj' hcs rfl
      obtain rfl := List.singleton_inj.mp hc
      exact .inr ⟨hd, hword⟩
    · rw [List.concat_eq_append, ← List.cons_append, ← List.append_assoc] at hcs
      obtain ⟨rfl, -⟩ := List.append_inj' hcs rfl
      exact .inl ⟨before, after, ⟨d, hd, rfl⟩, hword⟩
  · rintro (⟨before, after, ⟨d, hd, rfl⟩, hword⟩ | ⟨hc, hword⟩)
    · exact ⟨before, after ++ [c], ⟨d, hd, by simp⟩, hword⟩
    · exact ⟨cs, [], ⟨c, hc, rfl⟩, hword⟩

theorem FirstDelimiter.takeWhile_eq {cs before after : List Char} (h : FirstDelimiter cs before after) :
    cs.takeWhile (!isDelimiter ·) = before := by
  obtain ⟨⟨d, hd, rfl⟩, hfirst⟩ := h
  have hstop : StopsAt (!isDelimiter ·) (d :: after) := by simp [hd]
  rw [takeWhile_append_stop hstop]
  exact List.takeWhile_eq_self_iff.mpr fun c hc => by simp [hfirst c hc]

/-- The arguments are taken from behind the first delimiter. -/
theorem FirstDelimiter.afterDelimiter_eq {cs before after : List Char} (h : FirstDelimiter cs before after)
    (hline : '\n' ∉ cs) : afterDelimiter cs = after := by
  obtain ⟨⟨d, hd, rfl⟩, hfirst⟩ := h
  have hstop : StopsAt (!isDelimiter ·) (d :: after) := by simp [hd]
  have hbefore : before.dropWhile (!isDelimiter ·) = [] :=
    List.dropWhile_eq_nil_iff.mpr fun c hc => by simp [hfirst c hc]
  rw [afterDelimiter, dropWhile_append_stop hstop, hbefore, List.nil_append, List.drop_one, List.tail_cons]
  exact List.takeWhile_eq_self_iff.mpr fun c hc => by
    simpa using ne_of_mem_of_not_mem (List.mem_append_right _ (List.mem_cons_of_mem d hc)) hline

theorem exists_firstDelimiter_or_none (cs : List Char) :
    (∃ before after, FirstDelimiter cs before after) ∨ ∀ c ∈ cs, isDelimiter c = false := by
  induction cs with
  | nil => exact .inr (by simp)
  | cons c cs ih =>
    cases hc : isDelimiter c with
    | true => exact .inl ⟨[], cs, ⟨c, hc, rfl⟩, by simp⟩
    | false =>
      rcases ih with ⟨before, after, ⟨d, hd, rfl⟩, hfirst⟩ | hnone
      · exact .inl ⟨c :: before, after, ⟨d, hd, rfl⟩, List.forall_mem_cons.mpr ⟨hc, hfirst⟩⟩
      · exact .inr (List.forall_mem_cons.mpr ⟨hc, hnone⟩)

/-! ### The word that is read -/

theorem isDelimiter_of_isWordChar {c : Char} (h : isWordChar c = true) : isDelimiter c = false := by
  rw [Bool.eq_false_iff]
  intro hc
  simp only [isDelimiter, Bool.or_eq_true, beq_iff_eq] at hc
  rcases hc with rfl | rfl <;> simp [isWordChar] at h

/-- One more character: at a delimiter behind a word the value is found, otherwise reading goes on with
the word that ends here. -/
theorem delimitedWord?_cons (read : List Char) (c : Char) (cs : List Char) :
    delimitedWord? (lastWord read).reverse (c :: cs) =
      if isDelimiter c = true ∧ lastWord read ≠ [] then some (lastWord read)
      else delimitedWord? (lastWord (read ++ [c])).reverse cs := by
  rw [delimitedWord?]
  by_cases hc : isWordChar c = true
  · have hlast : lastWord (read ++ [c]) = lastWord read ++ [c] := List.rtakeWhile_concat_pos _ _ _ hc
    simp [hc, hlast, isDelimiter_of_isWordChar hc]
  · have hlast : lastWord (read ++ [c]) = [] := List.rtakeWhile_concat_neg _ _ _ hc
    simp [hc, hlast]

theorem delimitedWord?_eq_none_iff {read cs : List Char} (h : ¬HasValue read) :
    delimitedWord? (lastWord read).reverse cs = none ↔ ¬HasValue (read ++ cs) := by
  induction cs generalizing read with
  | nil => simp [delimitedWord?, h]
  | cons c cs ih =>
    rw [delimitedWord?_cons]
    split
    · next hfound =>
      have hvalue : HasValue (read ++ c :: cs) := ⟨read, cs, ⟨c, hfound.1, rfl⟩, hfound.2⟩
      simp [hvalue]
    · next hgoesOn =>
      have hread : ¬HasValue (read ++ [c]) := by
        rw [hasValue_append_singleton]
        exact not_or.mpr ⟨h, hgoesOn⟩
      rw [ih hread, List.append_assoc, List.singleton_append]

theorem delimitedWord?_eq_some_iff {read cs value : List Char} (h : ¬HasValue read) :
    delimitedWord? (lastWord read).reverse cs = some value ↔ ∃ before after, Parted cs before after ∧
      lastWord (read ++ before) ≠ [] ∧ ¬HasValue (read ++ before) ∧ value = lastWord (read ++ before) := by
  induction cs generalizing read with
  | nil => simp [delimitedWord?, Parted]
  | cons c cs ih =>
    rw [delimitedWord?_cons, exists_parted_cons, List.append_nil]
    split
    · next hfound =>
      -- This delimiter has a word before it, and so no later one is the first of these.
      have hlater : ¬∃ before after, Parted cs before after ∧ lastWord (read ++ c :: before) ≠ [] ∧
          ¬HasValue (read ++ c :: before) ∧ value = lastWord (read ++ c :: before) := by
        rintro ⟨before, after, -, -, hnone, -⟩
        exact hnone ⟨read, before, ⟨c, hfound.1, rfl⟩, hfound.2⟩
      rw [or_iff_left hlater, and_iff_right hfound.1, and_iff_right hfound.2, and_iff_right h,
        Option.some.injEq, eq_comm]
    · next hgoesOn =>
      have hread : ¬HasValue (read ++ [c]) := by
        rw [hasValue_append_singleton]
        exact not_or.mpr ⟨h, hgoesOn⟩
      rw [ih hread, or_iff_right fun hfound => hgoesOn ⟨hfound.1, hfound.2.1⟩]
      simp only [List.append_assoc, List.singleton_append]

theorem not_hasValue_nil : ¬HasValue [] := not_hasValue_of_none (by simp)

theorem FirstValue.delimitedWord?_eq {tail before after : List Char} (h : FirstValue tail before after) :
    delimitedWord? [] tail = some (lastWord before) :=
  (delimitedWord?_eq_some_iff not_hasValue_nil).mpr ⟨before, after, h.parted, h.word, h.first, rfl⟩

theorem exists_firstValue {tail value : List Char} (h : delimitedWord? [] tail = some value) :
    ∃ before after, FirstValue tail before after ∧ value = lastWord before := by
  obtain ⟨before, after, hparted, hword, hfirst, hvalue⟩ :=
    (delimitedWord?_eq_some_iff not_hasValue_nil).mp h
  exact ⟨before, after, ⟨hparted, hword, hfirst⟩, hvalue⟩

theorem delimitedWord?_nil_eq_none_iff {tail : List Char} :
    delimitedWord? [] tail = none ↔ ¬HasValue tail := delimitedWord?_eq_none_iff not_hasValue_nil

/-- A first delimiter that has a word before it is the first of these. -/
theorem FirstDelimiter.firstValue {tail before after : List Char} (h : FirstDelimiter tail before after)
    (hword : lastWord before ≠ []) : FirstValue tail before after :=
  ⟨h.parted, hword, not_hasValue_of_none h.first⟩

/-! ### Lines -/

section
variable {line tail : List Char} {name : String}

theorem Named.takeWhile_eq (h : Named line name tail) :
    (name.toList ++ tail).takeWhile isWordChar = name.toList := by
  rw [takeWhile_append_stop h.longest]
  exact List.takeWhile_eq_self_iff.mpr h.word

theorem parseLine_of_named (h : Named line name tail) (hname : name ≠ all) :
    parseLine line = (delimitedWord? [] tail).elim (.error (.valuelessDescriptor name)) fun value =>
      .ok ⟨name, String.ofList value, arguments (afterDelimiter tail)⟩ := by
  simp only [h.line_eq, parseLine, h.takeWhile_eq, List.isEmpty_iff, h.nonempty, String.ofList_toList,
    hname, if_false, List.drop_succ_cons, List.drop_left]
  cases delimitedWord? [] tail <;> rfl

theorem name_of_parseLine (h : Named line name tail) {d : Descriptor} (hd : parseLine line = .ok d) :
    d.name = name := by
  by_cases hname : name = all
  · subst hname
    simp only [h.line_eq, parseLine, h.takeWhile_eq, List.isEmpty_iff, h.nonempty, String.ofList_toList,
      if_false, if_true] at hd
    split at hd
    · cases hd
    · split at hd
      · cases hd
      · rw [← Except.ok.inj hd]
  · rw [parseLine_of_named h hname] at hd
    cases hvalue : delimitedWord? [] tail <;> rw [hvalue] at hd
    · cases hd
    · rw [← Except.ok.inj hd]

theorem Named.newline_not_mem (h : Named line name tail) (hline : '\n' ∉ line) : '\n' ∉ tail :=
  fun hmem => hline (h.line_eq ▸ List.mem_cons_of_mem _ (List.mem_append_right _ hmem))

/-- What a descriptor is read from. -/
theorem parseLine_eq_ok_iff (h : Named line name tail) (hname : name ≠ all) (hline : '\n' ∉ line)
    {d : Descriptor} : parseLine line = .ok d ↔ d.name = name ∧
      (∃ before after, FirstValue tail before after ∧ d.value = String.ofList (lastWord before)) ∧
      ∃ before after, FirstDelimiter tail before after ∧ d.args = arguments after := by
  have htail := h.newline_not_mem hline
  rw [parseLine_of_named h hname]
  constructor
  · intro hd
    cases hvalue : delimitedWord? [] tail with
    | none =>
      rw [hvalue] at hd
      cases hd
    | some value =>
      rw [hvalue] at hd
      obtain rfl := Except.ok.inj hd
      obtain ⟨before, after, hfirst, rfl⟩ := exists_firstValue hvalue
      refine ⟨rfl, ⟨before, after, hfirst, rfl⟩, ?_⟩
      rcases exists_firstDelimiter_or_none tail with ⟨before, after, hdelimiter⟩ | hnone
      · exact ⟨before, after, hdelimiter, congrArg arguments (hdelimiter.afterDelimiter_eq htail)⟩
      · exact absurd ⟨_, _, hfirst.parted, hfirst.word⟩ (not_hasValue_of_none hnone)
  · obtain ⟨dname, value, args⟩ := d
    rintro ⟨rfl, ⟨before, after, hfirst, rfl⟩, ⟨front, behind, hdelimiter, rfl⟩⟩
    rw [hfirst.delimitedWord?_eq, hdelimiter.afterDelimiter_eq htail, Option.elim_some]

theorem parseLine_eq_error_iff (h : Named line name tail) (hname : name ≠ all) :
    parseLine line = .error (.valuelessDescriptor name) ↔ ¬HasValue tail := by
  rw [parseLine_of_named h hname, ← delimitedWord?_nil_eq_none_iff]
  cases delimitedWord? [] tail <;> simp

/-- The rule of one delimiter is broken just when the first delimiter has no word before it, but a later
one has. -/
theorem not_oneDelimiter_iff (h : Named line name tail) (hname : name ≠ all) (hline : '\n' ∉ line) :
    ¬OneDelimiter name tail (parseLine line) ↔
      HasValue tail ∧ ∃ before after, FirstDelimiter tail before after ∧ lastWord before = [] := by
  have herror := parseLine_eq_error_iff h hname
  constructor
  · intro hbroken
    have hvalue : HasValue tail := by
      by_contra hnone
      refine hbroken (herror.mpr hnone ▸ ?_)
      rcases exists_firstDelimiter_or_none tail with ⟨before, after, hdelimiter⟩ | hplain
      · refine .noWord hdelimiter (by_contra fun hword => hnone ?_)
        exact ⟨before, after, hdelimiter.parted, hword⟩
      · exact .noDelimiter hplain
    rcases exists_firstDelimiter_or_none tail with ⟨before, after, hdelimiter⟩ | hnone
    · refine ⟨hvalue, before, after, hdelimiter, by_contra fun hword => hbroken ?_⟩
      have hok : parseLine line =
          .ok ⟨name, String.ofList (lastWord before), arguments after⟩ :=
        (parseLine_eq_ok_iff h hname hline).mpr
          ⟨rfl, ⟨before, after, hdelimiter.firstValue hword, rfl⟩, before, after, hdelimiter, rfl⟩
      exact hok ▸ .split hdelimiter hword
    · exact absurd hvalue (not_hasValue_of_none hnone)
  · rintro ⟨hvalue, before, after, hdelimiter, hempty⟩ hrule
    generalize hresult : parseLine line = result at hrule
    cases hrule with
    | split hother hword =>
      rw [← hdelimiter.takeWhile_eq, hother.takeWhile_eq] at hempty
      exact hword hempty
    | noWord | noDelimiter => exact herror.mp hresult hvalue

theorem named_of_takeWhile {rest : List Char} (h : rest.takeWhile isWordChar ≠ []) :
    Named ('@' :: rest) (String.ofList (rest.takeWhile isWordChar)) (rest.dropWhile isWordChar) := by
  refine ⟨?_, by rwa [String.toList_ofList], ?_, stopsAt_dropWhile isWordChar rest⟩
  · rw [String.toList_ofList, List.takeWhile_append_dropWhile]
  · rw [String.toList_ofList]
    exact fun c hc => List.mem_takeWhile_imp hc

theorem named_or_nameless (line : List Char) : (∃ name tail, Named line name tail) ∨
    parseLine line = .error (.namelessDescriptor (String.ofList (trim line))) := by
  unfold parseLine
  split
  · next rest =>
    by_cases hname : rest.takeWhile isWordChar = []
    · exact .inr (by simp [hname])
    · exact .inl ⟨_, _, named_of_takeWhile hname⟩
  · exact .inr (by simp)

end

/-- Descriptors of one line, `all` apart. The value is the word before the first delimiter that has one
right before it, and the arguments are behind the first delimiter; without such a word there is no
descriptor. The rule of one delimiter holds unless the first delimiter has no word before it and a later
one has. -/
theorem parseLine_delimiters {line : List Char} (hline : '\n' ∉ line) :
    (∀ d : Descriptor, d.name ≠ all → (parseLine line = .ok d ↔ ∃ tail, Named line d.name tail ∧
      (∃ before after, FirstValue tail before after ∧ d.value = String.ofList (lastWord before)) ∧
      ∃ before after, FirstDelimiter tail before after ∧ d.args = arguments after)) ∧
    ∀ name tail, Named line name tail → name ≠ all →
      (parseLine line = .error (.valuelessDescriptor name) ↔ ¬HasValue tail) ∧
      (¬OneDelimiter name tail (parseLine line) ↔
        HasValue tail ∧ ∃ before after, FirstDelimiter tail before after ∧ lastWord before = []) := by
  refine ⟨fun d hall => ⟨fun hd => ?_, ?_⟩, fun name tail h hname =>
    ⟨parseLine_eq_error_iff h hname, not_oneDelimiter_iff h hname hline⟩⟩
  · rcases named_or_nameless line with ⟨name, tail, h⟩ | hnameless
    · obtain rfl := name_of_parseLine h hd
      obtain ⟨-, hvalue, hargs⟩ := (parseLine_eq_ok_iff h hall hline).mp hd
      exact ⟨tail, h, hvalue, hargs⟩
    · rw [hnameless] at hd
      cases hd
  · rintro ⟨tail, h, hvalue, hargs⟩
    exact (parseLine_eq_ok_iff h hall hline).mpr ⟨rfl, hvalue, hargs⟩

/-- A line whose first delimiter stands alone. -/
def strayDelimiter : List Char := "@param : id: foo".toList

theorem named_strayDelimiter : Named strayDelimiter "param" " : id: foo".toList :=
  ⟨by decide, by decide, List.all_eq_true.mp (by decide), by simp [isWordChar]⟩

theorem firstDelimiter_strayDelimiter :
    FirstDelimiter " : id: foo".toList [' '] " id: foo".toList :=
  ⟨⟨':', rfl, by decide⟩, by simp [isDelimiter]⟩

/-- One delimiter does not always split a descriptor: here the value is before the second one, but the
arguments are behind the first. -/
theorem value_of_strayDelimiter : ¬∀ line name tail, '\n' ∉ line → Named line name tail → name ≠ all →
    OneDelimiter name tail (parseLine line) := by
  intro hrule
  have hbroken := (not_oneDelimiter_iff named_strayDelimiter (by decide) (by decide)).mpr
    ⟨⟨" : id".toList, " foo".toList, ⟨':', rfl, by decide⟩, by decide⟩, _, _,
      firstDelimiter_strayDelimiter, by decide⟩
  exact hbroken (hrule _ _ _ (by decide) named_strayDelimiter (by decide))

theorem parseLine_strayDelimiter : '\n' ∉ strayDelimiter ∧ Named strayDelimiter "param" " : id: foo".toList ∧
    parseLine strayDelimiter = .ok ⟨"param", "id", ["id:", "foo"]⟩ ∧
    ¬OneDelimiter "param" " : id: foo".toList (parseLine strayDelimiter) := by
  have hline : '\n' ∉ strayDelimiter := by decide
  have hvalue : FirstValue " : id: foo".toList " : id".toList " foo".toList :=
    ⟨⟨':', rfl, by decide⟩, by decide, delimitedWord?_nil_eq_none_iff.mp (by decide)⟩
  have hfirst := firstDelimiter_strayDelimiter
  obtain ⟨hok, hnamed⟩ := parseLine_delimiters hline
  obtain ⟨-, hbroken⟩ := hnamed "param" _ named_strayDelimiter (by decide)
  have hparse : parseLine strayDelimiter = .ok ⟨"param", "id", ["id:", "foo"]⟩ :=
    (hok ⟨"param", "id", ["id:", "foo"]⟩ (by decide)).mpr ⟨_, named_strayDelimiter,
      ⟨_, _, hvalue, by decide⟩, _, _, hfirst, by decide⟩
  exact ⟨hline, named_strayDelimiter, hparse,
    hbroken.mpr ⟨⟨_, _, hvalue.parted, hvalue.word⟩, _, _, hfirst, by decide⟩⟩

end RouteQuery.Descriptor
