import RouteQuery.Proofs.EscapeRoundTrip

/-! Which escaped paths are taken for regular expressions. Those between slashes are, and so are paths
that end in a reserved character and `slash_`: the last underscore of the token of that character and
the text behind it read like the token of a slash. -/
namespace RouteQuery.RoutePath
open Escape

/-- Behind its opening slash the path ends in a reserved character and `slash_`. -/
def EndsAstride (path : String) : Prop :=
  ∃ front c, (tokenFor? c).isSome = true ∧ path = "/" ++ front ++ String.singleton c ++ "slash_"

theorem exists_word_of_reserved {c : Char} (h : (tokenFor? c).isSome = true) :
    ∃ word, tokenFor? c = some ("_" ++ word ++ "_") := by
  obtain ⟨token, htoken⟩ := Option.isSome_iff_exists.mp h
  obtain ⟨word, -, hword⟩ := exists_word_of_mem_table (mem_table_of_tokenFor? htoken)
  have htext : token = "_" ++ String.ofList word ++ "_" := by
    rw [← String.toList_inj, hword]
    simp
  exact ⟨String.ofList word, by rw [htoken, htext]⟩

/-- What ends like the token of a slash comes from a slash, or from `slash_` behind a character whose
token ends where the word begins. -/
theorem of_slashToken_suffix {cs : List Char} (hsound : ¬Collides cs)
    (h : slashToken.toList <:+ encodeChars cs) :
    (∃ front, cs = front ++ ['/']) ∨
      ∃ front c, (tokenFor? c).isSome = true ∧ cs = front ++ c :: "slash_".toList := by
  obtain ⟨inner, hinner⟩ := h
  have htoken : slashToken.toList = ['_'] ++ "slash".toList ++ ['_'] := rfl
  rcases List.eq_nil_or_concat' cs with rfl | ⟨front, c, rfl⟩
  · simp [encodeChars, htoken] at hinner
  by_cases hc : c = '_'
  · subst hc
    have hself : encodeChar '_' = ['_'] := by decide
    rw [encodeChars_concat, hself, htoken, ← List.append_assoc, ← List.append_assoc] at hinner
    obtain ⟨hfront, -⟩ := List.append_inj' hinner rfl
    obtain ⟨before, rfl, hbefore⟩ := of_encodeChars_eq_append_plain (isMark_of_mem_word (by decide)) hfront.symm
    obtain ⟨before, d, hd, rfl⟩ := exists_mark_of_encodeChars_eq_concat hbefore
    rcases Bool.or_eq_true_iff.mp hd with hd | hd
    · obtain rfl := eq_of_beq hd
      exact absurd ⟨"slash".toList, by decide, '_', rfl, before, [], by simp⟩ hsound
    · exact .inr ⟨before, d, hd, by simp⟩
  · by_cases hslash : c = '/'
    · exact .inl ⟨front, by rw [hslash]⟩
    · have hends := slash_isSuffixOf_encodeChar hc hslash (encodeChars front)
      rw [← encodeChars_concat, ← hinner, List.isSuffixOf_iff_suffix.mpr (List.suffix_append ..)]
        at hends
      cases hends

section
variable {path inner front word : String}

theorem ofIdentifier_between (cs : List Char) :
    ofIdentifier (String.ofList (slashToken.toList ++ (cs ++ slashToken.toList))) =
      .regex (String.ofList (decodeChars cs)) := by
  rw [ofIdentifier, String.toList_ofList, regexSource?_between]

theorem ofIdentifier_encode_of_slashes (hsound : ¬Collides path.toList)
    (h : path = "/" ++ inner ++ "/") : ofIdentifier (encode path) = .regex inner := by
  have hchars : path.toList = '/' :: (inner.toList ++ ['/']) := by simp [h]
  have hinner : ¬Collides inner.toList := fun hcollides =>
    hsound (hcollides.of_infix (by rw [hchars]; exact ⟨['/'], ['/'], by simp⟩))
  have hslash : encodeChar '/' = slashToken.toList := rfl
  rw [encode, hchars, encodeChars_cons, encodeChars_concat, hslash, ofIdentifier_between,
    decodeChars_encodeChars_iff.mpr hinner, String.ofList_toList]

theorem ofIdentifier_encode_of_astride (hsound : ¬Collides path.toList) {c : Char}
    (hc : tokenFor? c = some ("_" ++ word ++ "_"))
    (h : path = "/" ++ front ++ String.singleton c ++ "slash_") :
    ofIdentifier (encode path) = .regex (front ++ "_" ++ word) := by
  have hchars : path.toList = '/' :: (front.toList ++ c :: "slash_".toList) := by simp [h]
  have hword : word.toList ∈ tokenWords := by
    obtain ⟨found, hfound, htoken⟩ := exists_word_of_mem_table (mem_table_of_tokenFor? hc)
    have hsame : word.toList = found := by simpa using htoken
    rwa [hsame]
  have hplain := isMark_of_mem_word hword
  -- The source has lost the last underscore of the token, so nothing in it passes for a token.
  have hsource : ¬Collides (front.toList ++ ['_'] ++ word.toList) := by
    intro hcollides
    have hmark : isMark c = true := by simp [isMark, hc]
    have hfront := collides_concat_mark hmark (collides_of_append_plain hplain hcollides)
    exact hsound (hfront.of_infix (by rw [hchars]; exact ⟨['/'], "slash_".toList, by simp⟩))
  have hsplit : encodeChars path.toList = slashToken.toList ++
      (encodeChars (front.toList ++ ['_'] ++ word.toList) ++ slashToken.toList) := by
    have hself : encodeChars ['_'] = ['_'] := by decide
    have hslash : encodeChar '/' = slashToken.toList := rfl
    have hrest : encodeChars "slash_".toList = "slash_".toList := by decide
    have htoken : slashToken.toList = '_' :: "slash_".toList := rfl
    rw [hchars, encodeChars_cons, encodeChars_append, encodeChars_cons, encodeChars_append,
      encodeChars_append, encodeChars_of_plain hplain, hself, hrest, hslash,
      encodeChar_of_reserved hc]
    simp [htoken]
  rw [encode, hsplit, ofIdentifier_between, decodeChars_encodeChars_iff.mpr hsource]
  congr 1
  simp [← String.toList_inj]

theorem ofIdentifier_encode_of_plain (hsound : ¬Collides path.toList)
    (hslashes : ∀ inner, path ≠ "/" ++ inner ++ "/") (hastride : ¬EndsAstride path) :
    ofIdentifier (encode path) = .literal path := by
  have hnone : regexSource? (encode path).toList = none := by
    by_contra hsome
    obtain ⟨inner, hinner⟩ := Option.ne_none_iff_exists'.mp hsome
    have hsplit := eq_of_regexSource? hinner
    rw [encode, String.toList_ofList] at hsplit
    have hopens : path.toList = '/' :: decodeChars (inner ++ slashToken.toList) := by
      have hmem : ('/', slashToken) ∈ table := by decide
      rw [← decodeChars_token hmem, ← hsplit, decodeChars_encodeChars_iff.mpr hsound]
    have hends : slashToken.toList <:+
        encodeChars (decodeChars (inner ++ slashToken.toList)) := by
      have hslash : encodeChar '/' = slashToken.toList := rfl
      rw [hopens, encodeChars_cons, hslash] at hsplit
      exact ⟨inner, (List.append_cancel_left hsplit).symm⟩
    have hrest : ¬Collides (decodeChars (inner ++ slashToken.toList)) := fun hcollides =>
      hsound (hcollides.of_infix (by rw [hopens]; exact (List.suffix_cons ..).isInfix))
    rcases of_slashToken_suffix hrest hends with ⟨front, hfront⟩ | ⟨front, c, hc, hfront⟩
    · refine hslashes (String.ofList front) ?_
      rw [← String.toList_inj, hopens, hfront]
      simp
    · refine hastride ⟨String.ofList front, c, hc, ?_⟩
      rw [← String.toList_inj, hopens, hfront]
      simp
  rw [ofIdentifier, hnone, decode_encode_iff.mpr hsound]

end

/-- The route of a path that survives being escaped: between slashes a regular expression, and else the
path itself, unless it ends astride a token. Then it becomes the regular expression that is left of it
without the false token, and this is the only case in which a route is not printed as it was written. -/
theorem ofIdentifier_encode_of_decode_encode {path : String} (h : decode (encode path) = path) :
    (∀ inner, path = "/" ++ inner ++ "/" → ofIdentifier (encode path) = .regex inner) ∧
    ((∀ inner, path ≠ "/" ++ inner ++ "/") → ¬EndsAstride path →
      ofIdentifier (encode path) = .literal path) ∧
    (∀ front c word, tokenFor? c = some ("_" ++ word ++ "_") →
      path = "/" ++ front ++ String.singleton c ++ "slash_" →
      ofIdentifier (encode path) = .regex (front ++ "_" ++ word)) ∧
    ((ofIdentifier (encode path)).text = path ↔ ¬EndsAstride path) := by
  have hsound := decode_encode_iff.mp h
  refine ⟨fun _ => ofIdentifier_encode_of_slashes hsound, ofIdentifier_encode_of_plain hsound,
    fun _ _ _ => ofIdentifier_encode_of_astride hsound, ?_⟩
  constructor
  · rintro hprinted ⟨front, c, hc, hpath⟩
    obtain ⟨word, hword⟩ := exists_word_of_reserved hc
    rw [ofIdentifier_encode_of_astride hsound hword hpath, text, hpath] at hprinted
    have hlast := congrArg (fun text : String => text.toList.reverse.head?) hprinted
    simp at hlast
  · intro hastride
    by_cases hslashes : ∃ inner, path = "/" ++ inner ++ "/"
    · obtain ⟨inner, hinner⟩ := hslashes
      rw [ofIdentifier_encode_of_slashes hsound hinner, text, hinner]
    · rw [ofIdentifier_encode_of_plain hsound (not_exists.mp hslashes) hastride, text]

theorem routes_of_dotted_paths :
    decode (encode "/a.b_c/") = "/a.b_c/" ∧ decode (encode "/a.slash") = "/a.slash" ∧
      decode (encode "/a.slash_") = "/a.slash_" ∧
      ofIdentifier (encode "/a.b_c/") = .regex "a.b_c" ∧
      ofIdentifier (encode "/a.slash") = .literal "/a.slash" ∧
      ofIdentifier (encode "/a.slash_") = .regex "a_dot" := by
  have hregex : decode (encode "/a.b_c/") = "/a.b_c/" := decode_encode_iff.mpr (by decide)
  have hliteral : decode (encode "/a.slash") = "/a.slash" := decode_encode_iff.mpr (by decide)
  have hastride : decode (encode "/a.slash_") = "/a.slash_" := decode_encode_iff.mpr (by decide)
  refine ⟨hregex, hliteral, hastride, ?_, ?_, ?_⟩
  · exact (ofIdentifier_encode_of_decode_encode hregex).1 "a.b_c" rfl
  · refine (ofIdentifier_encode_of_decode_encode hliteral).2.1 ?_ ?_
    · intro inner h
      simpa using congrArg (fun text : String => text.toList.reverse.head?) h
    · rintro ⟨front, c, -, h⟩
      simpa using congrArg (fun text : String => text.toList.reverse.head?) h
  · exact (ofIdentifier_encode_of_decode_encode hastride).2.2.1 "a" '.' "dot" rfl rfl

/-- A path that survives being escaped and does not end in a slash can become a regular expression,
and then it is printed with another text. -/
theorem regex_of_path_without_final_slash :
    decode (encode "/a.slash_") = "/a.slash_" ∧ (∀ inner, "/a.slash_" ≠ "/" ++ inner ++ "/") ∧
      ofIdentifier (encode "/a.slash_") = .regex "a_dot" ∧
      (ofIdentifier (encode "/a.slash_")).text = "/a_dot/" := by
  have hsound : ¬Collides "/a.slash_".toList := by decide
  have hroute : ofIdentifier (encode "/a.slash_") = .regex "a_dot" :=
    @ofIdentifier_encode_of_astride "/a.slash_" "a" "dot" hsound '.' rfl rfl
  refine ⟨decode_encode_iff.mpr hsound, ?_, hroute, by rw [hroute]; rfl⟩
  intro inner h
  simpa using congrArg (fun text : String => text.toList.reverse.head?) h

end RouteQuery.RoutePath
