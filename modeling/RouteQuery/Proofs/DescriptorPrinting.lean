import Mathlib.Data.List.Chain
import RouteQuery.Proofs.DescriptorDelimiters
import RouteQuery.Proofs.Lines

/-! Descriptors written out. They are read back as they were, whatever lines without annotations stand
around them. -/
namespace RouteQuery
open Text

namespace Text

/-- Words come one by one, however they are set apart. -/
theorem words_append_cons {word : List Char} (h : ∀ c ∈ word, isBlank c = false) {b : Char}
    (hb : isBlank b = true) (rest : List Char) :
    words (word ++ b :: rest) = (if word.isEmpty then [] else [word]) ++ words rest := by
  rw [words, splitAt_append_cons h hb, List.filter_cons]
  cases word <;> rfl

theorem words_of_word {word : List Char} (hne : word ≠ []) (h : ∀ c ∈ word, isBlank c = false) :
    words word = [word] := by
  rw [words, splitAt_of_forall h, List.filter_cons_of_pos (by simpa using hne), List.filter_nil]

theorem trim_of_stopsAt {cs : List Char} (hfirst : StopsAt isBlank cs) (hlast : StopsAt isBlank cs.reverse) :
    trim cs = cs := by
  rw [trim, trimLeft, dropWhile_of_stopsAt hfirst, trimRight, dropWhile_of_stopsAt hlast, List.reverse_reverse]

theorem trim_cons_of_isBlank {c : Char} (h : isBlank c = true) (cs : List Char) : trim (c :: cs) = trim cs := by
  rw [trim, trimLeft, List.dropWhile_cons_of_pos h]
  rfl

theorem not_isBlank_of_isWordChar {c : Char} (h : isWordChar c = true) : isBlank c = false := by
  have hrange : 48 ≤ c.toNat ∧ c.toNat ≤ 122 := by
    rw [isWordChar, Bool.or_eq_true, beq_iff_eq] at h
    rcases h with h | rfl
    · have hbounds : (decide (65 ≤ c.val ∧ c.val ≤ 90) || decide (97 ≤ c.val) && decide (c.val ≤ 122) ||
          decide (48 ≤ c.val) && decide (c.val ≤ 57)) = true := h
      simp only [Bool.or_eq_true, Bool.and_eq_true, decide_eq_true_eq, UInt32.le_iff_toNat_le] at hbounds
      change (65 ≤ c.toNat ∧ c.toNat ≤ 90 ∨ 97 ≤ c.toNat ∧ c.toNat ≤ 122) ∨
        48 ≤ c.toNat ∧ c.toNat ≤ 57 at hbounds
      omega
    · decide
  simp only [isBlank, RangeTable.contains, whiteSpace, List.any_cons, List.any_nil, Bool.or_eq_false_iff,
    Bool.and_eq_false_iff, decide_eq_false_iff_not, and_true]
  omega

end Text

namespace Descriptor

/-- Arguments as they stand behind a delimiter, with arrows between them. -/
def argumentText : List String → List Char
  | [] => []
  | arg :: args => ' ' :: (arg.toList ++ args.flatMap fun later => ' ' :: '-' :: '>' :: ' ' :: later.toList)

/-- A descriptor on a line of its own. -/
def text (d : Descriptor) (delimiter : Char) : List Char :=
  '@' :: (d.name.toList ++ ' ' :: (d.value.toList ++ delimiter :: argumentText d.args))

/-- A word of letters, digits and underscores. -/
structure IsWord (word : String) : Prop where
  ne_nil : word.toList ≠ []
  chars : ∀ c ∈ word.toList, isWordChar c = true

/-- What can be the value of a descriptor for a path: one line without blanks around it, and in it no
delimiter with a blank behind it. -/
structure IsPathValue (value : String) : Prop where
  ne_nil : value.toList ≠ []
  no_feed : '\n' ∉ value.toList
  first : StopsAt isBlank value.toList
  last : StopsAt isBlank value.toList.reverse
  delimiters : value.toList.IsChain fun c next => isDelimiter c = true → isAsciiBlank next = false

/-- What can be an argument: anything without blanks but an arrow. -/
structure IsArgument (arg : String) : Prop where
  ne_nil : arg.toList ≠ []
  no_blank : ∀ c ∈ arg.toList, isBlank c = false
  no_arrow : arg.toList ≠ ['-', '>']

structure Printable (d : Descriptor) : Prop where
  name : IsWord d.name
  value : IsWord d.value ∨ d.name = all ∧ IsPathValue d.value
  args : ∀ arg ∈ d.args, IsArgument arg

/-- Descriptors on lines of their own, in any indentation, among lines without annotations. -/
inductive Layout : List Descriptor → List (List Char) → Prop
  | nil : Layout [] []
  | plain {ds : List Descriptor} {ls : List (List Char)} {line : List Char} (hat : '@' ∉ line)
      (hfeed : '\n' ∉ line) (h : Layout ds ls) : Layout ds (line :: ls)
  | text {ds : List Descriptor} {ls : List (List Char)} (indent : List Char) (hat : '@' ∉ indent)
      (hfeed : '\n' ∉ indent) (d : Descriptor) (delimiter : Char) (hdelimiter : isDelimiter delimiter = true)
      (h : Layout ds ls) : Layout (d :: ds) ((indent ++ d.text delimiter) :: ls)

/-! ### Arguments -/

theorem words_argumentText {args : List String} (h : ∀ arg ∈ args, IsArgument arg) :
    (words (argumentText args)).filter (· ≠ ['-', '>']) = args.map String.toList := by
  have hspace (cs : List Char) : words ([] ++ ' ' :: cs) = words cs :=
    words_append_cons (by simp) (by decide) cs
  have harrow (cs : List Char) : words (['-', '>'] ++ ' ' :: cs) = ['-', '>'] :: words cs :=
    words_append_cons (List.forall_mem_cons.mpr ⟨by decide, List.forall_mem_singleton.mpr (by decide)⟩)
      (by decide) cs
  cases args with
  | nil => rfl
  | cons arg args =>
    rw [argumentText, ← List.nil_append (' ' :: _), hspace]
    -- An argument is read up to the blank of the arrow behind it, or up to the end if it is the last one.
    induction args generalizing arg with
    | nil =>
      obtain ⟨hne, hblank, hkept⟩ := h arg List.mem_cons_self
      rw [List.flatMap_nil, List.append_nil, words_of_word hne hblank]
      simp [hkept]
    | cons later args ih =>
      obtain ⟨⟨hne, hblank, hkept⟩, hargs⟩ := List.forall_mem_cons.mp h
      have hrest := harrow (later.toList ++ args.flatMap fun later => ' ' :: '-' :: '>' :: ' ' :: later.toList)
      rw [List.cons_append, List.singleton_append] at hrest
      rw [List.flatMap_cons, List.cons_append, words_append_cons hblank (by decide), if_neg (by simpa using hne)]
      simp only [List.cons_append, hrest, List.nil_append]
      rw [List.filter_cons_of_pos (by simpa using hkept), List.filter_cons_of_neg (by simp), ih later hargs]
      rfl

theorem arguments_argumentText {args : List String} (h : ∀ arg ∈ args, IsArgument arg) :
    arguments (argumentText args) = args := by
  rw [arguments, words_argumentText h]
  simp

theorem newline_not_mem_argumentText {args : List String} (h : ∀ arg ∈ args, IsArgument arg) :
    '\n' ∉ argumentText args := by
  have harg : ∀ arg ∈ args, '\n' ∉ arg.toList := fun arg hmem hfeed =>
    absurd ((h arg hmem).no_blank '\n' hfeed) (by decide)
  cases args with
  | nil => simp [argumentText]
  | cons arg args => simpa [argumentText] using harg

/-- Behind its delimiter a descriptor ends or goes on with a blank. -/
theorem blank_of_argumentText (args : List String) : (argumentText args).head?.all isAsciiBlank = true := by
  cases args <;> rfl

/-! ### Values -/

theorem lastWord_value {value : String} (h : IsWord value) : lastWord (' ' :: value.toList) = value.toList := by
  rw [lastWord, List.rtakeWhile, List.reverse_cons, takeWhile_append_stop (by simp [isWordChar]),
    List.takeWhile_eq_self_iff.mpr fun c hc => h.chars c (List.mem_reverse.mp hc), List.reverse_reverse]

theorem firstDelimiter_value {value : String} (h : IsWord value) {delimiter : Char}
    (hdelimiter : isDelimiter delimiter = true) (after : List Char) :
    FirstDelimiter (' ' :: (value.toList ++ delimiter :: after)) (' ' :: value.toList) after where
  parted := ⟨delimiter, hdelimiter, rfl⟩
  first := List.forall_mem_cons.mpr
    ⟨by decide, fun c hc => isDelimiter_of_isWordChar (h.chars c hc)⟩

theorem pathDelimiter?_cons (c : Char) (cs : List Char) :
    pathDelimiter? (c :: cs) = if isDelimiter c && cs.head?.all isAsciiBlank then some ([], cs)
      else (pathDelimiter? cs).map fun (before, after) => (c :: before, after) := by
  cases cs <;> simp [pathDelimiter?]

/-- The delimiter of a path is the first one that a blank or nothing follows. -/
theorem pathDelimiter?_append {before after : List Char} {delimiter : Char}
    (hdelimiter : isDelimiter delimiter = true) (hafter : after.head?.all isAsciiBlank = true)
    (hbefore : (before ++ [delimiter]).IsChain fun c next => isDelimiter c = true → isAsciiBlank next = false) :
    pathDelimiter? (before ++ delimiter :: after) = some (before, after) := by
  induction before with
  | nil => rw [List.nil_append, pathDelimiter?_cons, hdelimiter, hafter, Bool.and_self, if_pos rfl]
  | cons c before ih =>
    have hc : (isDelimiter c && (before ++ delimiter :: after).head?.all isAsciiBlank) = false := by
      rw [Bool.and_eq_false_imp]
      intro hc
      cases before with
      | nil => exact (List.isChain_cons_cons.mp hbefore).1 hc
      | cons next before => exact (List.isChain_cons_cons.mp hbefore).1 hc
    rw [List.cons_append, pathDelimiter?_cons, hc, if_neg Bool.false_ne_true, ih hbefore.tail]
    rfl

theorem IsWord.isPathValue {value : String} (h : IsWord value) : IsPathValue value where
  ne_nil := h.ne_nil
  no_feed := fun hfeed => absurd (h.chars '\n' hfeed) (by decide)
  first := fun c hc => not_isBlank_of_isWordChar (h.chars c (List.mem_of_mem_head? hc))
  last := fun c hc => not_isBlank_of_isWordChar
    (h.chars c (List.mem_reverse.mp (List.mem_of_mem_head? hc)))
  delimiters := by
    refine List.isChain_iff_forall_rel_of_append_cons_cons.mpr fun c next before after hvalue hdelimiter => ?_
    have hc : c ∈ value.toList := hvalue ▸ List.mem_append_right before List.mem_cons_self
    exact absurd hdelimiter (by simp [isDelimiter_of_isWordChar (h.chars c hc)])

theorem Printable.isPathValue {d : Descriptor} (h : d.Printable) : IsPathValue d.value :=
  h.value.elim IsWord.isPathValue And.right

theorem pathDelimiter?_value {value : String} (h : IsPathValue value) {delimiter : Char}
    (hdelimiter : isDelimiter delimiter = true) {after : List Char}
    (hafter : after.head?.all isAsciiBlank = true) :
    pathDelimiter? (' ' :: (value.toList ++ delimiter :: after)) = some (' ' :: value.toList, after) := by
  have hblank : isAsciiBlank delimiter = false := by
    rw [isDelimiter, Bool.or_eq_true, beq_iff_eq, beq_iff_eq] at hdelimiter
    rcases hdelimiter with rfl | rfl <;> decide
  have hchain : (value.toList ++ [delimiter]).IsChain fun c next =>
      isDelimiter c = true → isAsciiBlank next = false :=
    h.delimiters.append (List.isChain_singleton _) fun _ _ next hnext _ => by
      obtain rfl := Option.some.inj hnext
      exact hblank
  have hspace : ((' ' :: value.toList) ++ [delimiter]).IsChain fun c next =>
      isDelimiter c = true → isAsciiBlank next = false :=
    List.isChain_cons.mpr ⟨fun _ _ hspace => absurd hspace (by decide), hchain⟩
  exact pathDelimiter?_append hdelimiter hafter hspace

/-! ### Lines -/

theorem named_text {d : Descriptor} (h : IsWord d.name) (delimiter : Char) :
    Named (d.text delimiter) d.name (' ' :: (d.value.toList ++ delimiter :: argumentText d.args)) :=
  ⟨rfl, h.ne_nil, h.chars, by simp [isWordChar]⟩

theorem newline_not_mem_text {d : Descriptor} (h : d.Printable) {delimiter : Char}
    (hdelimiter : isDelimiter delimiter = true) : '\n' ∉ d.text delimiter := by
  have hname := h.name.isPathValue.no_feed
  have hvalue := h.isPathValue.no_feed
  have hargs := newline_not_mem_argumentText h.args
  have hfeed : '\n' ≠ delimiter := fun heq => absurd (heq ▸ hdelimiter) (by decide)
  simp [text, hname, hvalue, hfeed, hargs]

theorem parseLine_of_all {line tail : List Char} (h : Named line all tail) :
    parseLine line = (pathDelimiter? tail).elim (.error (.valuelessDescriptor all)) fun parts =>
      if (trim parts.1).isEmpty then .error (.valuelessDescriptor all)
      else .ok ⟨all, String.ofList (trim parts.1), arguments parts.2⟩ := by
  simp only [h.line_eq, parseLine, h.takeWhile_eq, List.isEmpty_iff, h.nonempty, String.ofList_toList,
    if_true, if_false, List.drop_succ_cons, List.drop_left]
  cases pathDelimiter? tail <;> rfl

theorem parseLine_text {d : Descriptor} (h : d.Printable) {delimiter : Char}
    (hdelimiter : isDelimiter delimiter = true) : parseLine (d.text delimiter) = .ok d := by
  have hnamed := named_text h.name delimiter
  by_cases hname : d.name = all
  · have hpath := h.isPathValue
    have htrim : trim (' ' :: d.value.toList) = d.value.toList :=
      (trim_cons_of_isBlank (by decide) _).trans (trim_of_stopsAt hpath.first hpath.last)
    rw [parseLine_of_all (hname ▸ hnamed), pathDelimiter?_value hpath hdelimiter (blank_of_argumentText d.args),
      Option.elim_some, htrim, if_neg (by simpa using hpath.ne_nil), String.ofList_toList,
      arguments_argumentText h.args, ← hname]
  · have hvalue := h.value.resolve_right fun hall => hname hall.1
    have hfirst := firstDelimiter_value hvalue hdelimiter (argumentText d.args)
    have hword := lastWord_value hvalue
    have hfound := hfirst.firstValue (by rw [hword]; exact hvalue.ne_nil)
    refine (parseLine_eq_ok_iff hnamed hname (newline_not_mem_text h hdelimiter)).mpr
      ⟨rfl, ⟨_, _, hfound, ?_⟩, _, _, hfirst, ?_⟩
    · rw [hword, String.ofList_toList]
    · exact (arguments_argumentText h.args).symm

/-! ### Texts -/

/-- What is read as a descriptor on a line: all of it from the first `@` on. -/
def annotation? (line : List Char) : Option (List Char) :=
  if '@' ∈ line then some (line.dropWhile (· ≠ '@')) else none

theorem parseAll_eq (query : List Char) : parseAll query = ((lines query).filterMap annotation?).mapM parseLine := by
  unfold parseAll
  induction lines query with
  | nil => rfl
  | cons line ls ih =>
    by_cases hat : '@' ∈ line
    · rw [List.filter_cons_of_pos (by simpa using hat), List.filterMap_cons, annotation?, if_pos hat,
        List.mapM_cons, List.mapM_cons, ih]
    · rw [List.filter_cons_of_neg (by simpa using hat), List.filterMap_cons, annotation?, if_neg hat, ih]

theorem annotation?_append {indent : List Char} (h : '@' ∉ indent) (rest : List Char) :
    annotation? (indent ++ '@' :: rest) = some ('@' :: rest) := by
  have hstop : StopsAt (· ≠ '@') ('@' :: rest) := by simp
  have hindent : indent.dropWhile (· ≠ '@') = [] :=
    List.dropWhile_eq_nil_iff.mpr fun c hc => by simpa using ne_of_mem_of_not_mem hc h
  rw [annotation?, if_pos (by simp), dropWhile_append_stop hstop, hindent, List.nil_append]

theorem Layout.no_feed {ds : List Descriptor} {ls : List (List Char)} (h : Layout ds ls)
    (hds : ∀ d ∈ ds, Printable d) : ∀ line ∈ ls, '\n' ∉ line := by
  induction h with
  | nil => simp
  | plain _ hfeed _ ih => exact List.forall_mem_cons.mpr ⟨hfeed, ih hds⟩
  | text _ _ hfeed d delimiter hdelimiter _ ih =>
    obtain ⟨hd, hds⟩ := List.forall_mem_cons.mp hds
    refine List.forall_mem_cons.mpr ⟨fun hmem => ?_, ih hds⟩
    exact (List.mem_append.mp hmem).elim hfeed (newline_not_mem_text hd hdelimiter)

theorem Layout.mapM_parseLine {ds : List Descriptor} {ls : List (List Char)} (h : Layout ds ls)
    (hds : ∀ d ∈ ds, Printable d) : (ls.filterMap annotation?).mapM parseLine = .ok ds := by
  induction h with
  | nil => rfl
  | plain hat _ _ ih => rw [List.filterMap_cons, annotation?, if_neg hat, ih hds]
  | text indent hat _ d delimiter hdelimiter _ ih =>
    obtain ⟨hd, hds⟩ := List.forall_mem_cons.mp hds
    have hfound : annotation? (indent ++ d.text delimiter) = some (d.text delimiter) := annotation?_append hat _
    rw [List.filterMap_cons, hfound, List.mapM_cons, parseLine_text hd hdelimiter, ih hds]
    rfl

/-- Descriptors that are written out, each on a line of its own among any lines without annotations, are
read back in their order. -/
theorem parseAll_layout {ds : List Descriptor} (hds : ∀ d ∈ ds, Printable d) {ls : List (List Char)}
    (h : Layout ds ls) : parseAll (unlines ls) = .ok ds := by
  by_cases hempty : ls = []
  · subst hempty
    cases h
    rfl
  · have hlines : lines (unlines ls) = ls := IsLines.lines_eq ⟨hempty, h.no_feed hds, rfl⟩
    rw [parseAll_eq, hlines, h.mapM_parseLine hds]

/-- A parameter, and a path with delimiters of its own. -/
def printed : List Descriptor := [⟨"param", "id", ["check:", "log"]⟩, ⟨"all", "/é;@ :id(\\d+)?", []⟩]

def printedLines : List (List Char) := ["users \x7b".toList, "  ".toList ++ printed[0].text ';', [],
  printed[1].text ':', "# \x7d\r".toList]

theorem isWord_of_all {word : String} (hne : word.toList ≠ []) (h : word.toList.all isWordChar = true) :
    IsWord word := ⟨hne, List.all_eq_true.mp h⟩

theorem isArgument_of_any {arg : String} (hne : arg.toList ≠ []) (h : arg.toList.any isBlank = false)
    (harrow : arg.toList ≠ ['-', '>']) : IsArgument arg := ⟨hne, by simpa using h, harrow⟩

theorem parseAll_printedLines : (∀ d ∈ printed, Printable d) ∧ Layout printed printedLines ∧
    parseAll (unlines printedLines) = .ok printed := by
  have hargs : ∀ arg ∈ ["check:", "log"], IsArgument arg := List.forall_mem_cons.mpr
    ⟨isArgument_of_any (by decide) (by decide) (by decide),
      List.forall_mem_singleton.mpr (isArgument_of_any (by decide) (by decide) (by decide))⟩
  have hpath : IsPathValue "/é;@ :id(\\d+)?" :=
    ⟨by decide, by decide, by decide, by decide, by decide⟩
  have hparam : Printable ⟨"param", "id", ["check:", "log"]⟩ :=
    ⟨isWord_of_all (by decide) (by decide), .inl (isWord_of_all (by decide) (by decide)), hargs⟩
  have hall : Printable ⟨"all", "/é;@ :id(\\d+)?", []⟩ :=
    ⟨isWord_of_all (by decide) (by decide), .inr ⟨rfl, hpath⟩, List.forall_mem_nil _⟩
  have hds : ∀ d ∈ printed, Printable d :=
    List.forall_mem_cons.mpr ⟨hparam, List.forall_mem_singleton.mpr hall⟩
  have hlayout : Layout printed printedLines :=
    .plain (by decide) (by decide) (.text _ (by decide) (by decide) _ ';' rfl (.plain (by decide) (by decide)
      (.text [] (by decide) (by decide) _ ':' rfl (.plain (by decide) (by decide) .nil))))
  exact ⟨hds, hlayout, parseAll_layout hds hlayout⟩

end Descriptor
end RouteQuery
