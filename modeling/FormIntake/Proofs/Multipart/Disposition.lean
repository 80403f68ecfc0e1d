/-
  FormIntake — what a disposition says.

  A disposition is cut at its semicolons before its quotes are looked at, and of the
  pieces that are parameters with one key the last one counts (`readDisposition_eq`).

  So a value in quotes is read as written if there is no semicolon in it
  (`readDisposition_quoted`).  If there is one, what follows it is read as further
  parameters, and these may even give the part another name
  (`readDisposition_renames`).
-/
import FormIntake.Multipart.Boundary
import FormIntake.Proofs.Multipart.Admission
import FormIntake.Proofs.Multipart.Encoding

namespace FormIntake.Multipart

variable {d : DispositionParameters} {key piece v : List Char} {pieces : List (List Char)}
  {name filename : String} {c : Char}

/-- A text that can stand between quotes on a line. -/
def Quotable (v : String) : Prop := ∀ c ∈ v.toList, c ≠ '"' ∧ c ≠ '\r' ∧ c ≠ '\n'

instance (v : String) : Decidable (Quotable v) := List.decidableBAll _ v.toList

/-- The value of the last parameter with this key. -/
def lastParameter? (key : String) (pieces : List (List Char)) : Option String :=
  (pieces.filterMap (parameter? key)).getLast?.map unquote

/-- Some parameter gives a file name that is a path. -/
def NamesPath (pieces : List (List Char)) : Prop :=
  ∃ v ∈ pieces.filterMap (parameter? "filename"), isPath (unquote v) = true

instance (pieces : List (List Char)) : Decidable (NamesPath pieces) :=
  inferInstanceAs (Decidable (∃ v ∈ _, isPath (unquote v) = true))

theorem Quotable.plainParameter {v : String} (h : Quotable v) (hsemicolon : ';' ∉ v.toList) :
    PlainParameter v := by
  intro c hc
  obtain ⟨hquote, hcr, hlf⟩ := h c hc
  exact ⟨hquote, fun heq => hsemicolon (heq ▸ hc), hcr, hlf⟩

theorem PlainName.chars (h : PlainName filename) :
    ∀ c ∈ filename.toList, c ≠ '/' ∧ c ≠ '\\' ∧ c ≠ '\x00' :=
  fun _ hc => ⟨fun heq => h.slash (heq ▸ hc), fun heq => h.backslash (heq ▸ hc),
    fun heq => h.nul (heq ▸ hc)⟩

/-! ## Pieces of a disposition -/

theorem parameter?_eq_some_iff {key : String} : parameter? key piece = some v ↔
    ∃ k, Text.splitFirst '=' (Text.trimChars piece) = some (k, v) ∧
      Text.sameIgnoringCase (Text.trimChars k) key.toList = true := by
  rw [parameter?]
  cases Text.splitFirst '=' (Text.trimChars piece) with
  | none => simp
  | some p =>
    obtain ⟨k, w⟩ := p
    simp only [Option.ite_none_right_eq_some, Option.some.injEq, Prod.mk.injEq]
    constructor
    · rintro ⟨hkey, rfl⟩
      exact ⟨k, ⟨rfl, rfl⟩, hkey⟩
    · rintro ⟨_, ⟨rfl, rfl⟩, hkey⟩
      exact ⟨hkey, rfl⟩

theorem not_name_and_filename (hname : Text.sameIgnoringCase key "name".toList = true) :
    Text.sameIgnoringCase key "filename".toList = false := by
  rw [Text.sameIgnoringCase, beq_iff_eq] at hname
  rw [Text.sameIgnoringCase, hname]
  decide

/-- A piece is a name, a file name, or nothing that counts. -/
theorem note_eq (d : DispositionParameters) (piece : List Char) :
    d.note piece =
      match parameter? "name" piece, parameter? "filename" piece with
      | some v, _ => .ok { d with name := some (unquote v) }
      | none, some v =>
        if isPath (unquote v) then .error (.invalidDisposition .pathCharacters)
        else .ok { d with filename := some (unquote v) }
      | none, none => .ok d := by
  rw [DispositionParameters.note, parameter?, parameter?]
  dsimp only
  cases hsplit : Text.splitFirst '=' (Text.trimChars piece) with
  | none => exact ite_self _
  | some p =>
    obtain ⟨k, v⟩ := p
    have hequals : '=' ∈ Text.trimChars piece := by
      rw [(Text.splitFirst_eq_some_iff.1 hsplit).1]
      simp
    rw [not_formData hequals]
    dsimp only
    cases Text.sameIgnoringCase (Text.trimChars k) "name".toList with
    | true => rfl
    | false => cases Text.sameIgnoringCase (Text.trimChars k) "filename".toList <;> rfl

theorem parameter?_filename_of_name (h : parameter? "name" piece = some v) :
    parameter? "filename" piece = none := by
  obtain ⟨k, hsplit, hkey⟩ := parameter?_eq_some_iff.1 h
  rw [parameter?, hsplit]
  dsimp only
  rw [not_name_and_filename hkey]
  rfl

theorem lastParameter?_cons_none {key : String} (h : parameter? key piece = none) :
    lastParameter? key (piece :: pieces) = lastParameter? key pieces := by
  rw [lastParameter?, List.filterMap_cons_none h]
  rfl

theorem lastParameter?_cons_some {key : String} (h : parameter? key piece = some v) :
    lastParameter? key (piece :: pieces) = some ((lastParameter? key pieces).getD (unquote v)) := by
  rw [lastParameter?, lastParameter?, List.filterMap_cons_some h, List.getLast?_cons]
  cases (pieces.filterMap (parameter? key)).getLast? <;> rfl

theorem namesPath_cons_none (h : parameter? "filename" piece = none) :
    NamesPath (piece :: pieces) ↔ NamesPath pieces := by
  rw [NamesPath, List.filterMap_cons_none h]
  rfl

theorem namesPath_cons_some (h : parameter? "filename" piece = some v) :
    NamesPath (piece :: pieces) ↔ isPath (unquote v) = true ∨ NamesPath pieces := by
  rw [NamesPath, List.filterMap_cons_some h, List.exists_mem_cons_iff]
  rfl

/-- **The last parameter with a key counts**, and no parameter may give a path as the name
    of a file. -/
theorem foldlM_note (d : DispositionParameters) (pieces : List (List Char)) :
    pieces.foldlM DispositionParameters.note d =
      if NamesPath pieces then .error (.invalidDisposition .pathCharacters)
      else .ok ⟨(lastParameter? "name" pieces).or d.name,
        (lastParameter? "filename" pieces).or d.filename⟩ := by
  induction pieces generalizing d with
  | nil =>
    rw [if_neg (by simp [NamesPath])]
    rfl
  | cons piece pieces ih =>
    rw [List.foldlM_cons, note_eq]
    cases hname : parameter? "name" piece with
    | some v =>
      have hfile := parameter?_filename_of_name hname
      rw [lastParameter?_cons_some hname, lastParameter?_cons_none hfile]
      simp only [namesPath_cons_none hfile]
      refine (ih _).trans ?_
      cases lastParameter? "name" pieces <;> rfl
    | none =>
      rw [lastParameter?_cons_none hname]
      cases hfile : parameter? "filename" piece with
      | none =>
        rw [lastParameter?_cons_none hfile]
        simp only [namesPath_cons_none hfile]
        exact ih d
      | some v =>
        rw [lastParameter?_cons_some hfile]
        simp only [namesPath_cons_some hfile]
        by_cases hpath : isPath (unquote v) = true
        · rw [if_pos hpath, if_pos (Or.inl hpath)]
          rfl
        · rw [if_neg hpath]
          simp only [or_iff_right hpath]
          refine (ih _).trans ?_
          cases lastParameter? "filename" pieces <;> rfl

theorem readDisposition_eq (v : String) :
    readDisposition v =
      if NamesPath (v.toList.splitOn ';') then .error (.invalidDisposition .pathCharacters)
      else match lastParameter? "name" (v.toList.splitOn ';') with
        | some name => .ok ⟨name, lastParameter? "filename" (v.toList.splitOn ';')⟩
        | none => .error (.invalidDisposition .missingName) := by
  rw [readDisposition, foldlM_note]
  split
  · rfl
  · rw [Option.or_none, Option.or_none]
    rfl

/-! ## Semicolons -/

theorem mem_of_mem_unquote (h : c ∈ (unquote v).toList) : c ∈ v := by
  rw [unquote] at h
  dsimp only at h
  split at h
  · rw [String.toList_ofList] at h
    exact Text.mem_of_mem_trimChars (List.mem_of_mem_tail (List.mem_of_mem_dropLast h))
  · rw [String.toList_ofList] at h
    exact Text.mem_of_mem_trimChars h

theorem mem_of_parameter? {key : String} (h : parameter? key piece = some v) (hc : c ∈ v) :
    c ∈ piece := by
  obtain ⟨k, hsplit, -⟩ := parameter?_eq_some_iff.1 h
  have hpiece := (Text.splitFirst_eq_some_iff.1 hsplit).1
  refine Text.mem_of_mem_trimChars ?_
  rw [hpiece]
  exact List.mem_append_right _ (List.mem_cons_of_mem _ hc)

/-- There is no semicolon in what is read. -/
theorem notMem_of_lastParameter? {key value : String} {cs : List Char}
    (h : lastParameter? key (cs.splitOn ';') = some value) : ';' ∉ value.toList := by
  obtain ⟨v, hv, rfl⟩ := Option.map_eq_some_iff.1 h
  obtain ⟨piece, hpiece, hparameter⟩ := List.mem_filterMap.1 (List.mem_of_getLast? hv)
  intro hc
  exact Text.notMem_of_mem_splitOn hpiece (mem_of_parameter? hparameter (mem_of_mem_unquote hc))

theorem notMem_of_readDisposition {d : Disposition} {cs : String}
    (h : readDisposition cs = .ok d) :
    ';' ∉ d.name.toList ∧ ∀ f, d.filename = some f → ';' ∉ f.toList := by
  rw [readDisposition_eq] at h
  split at h
  · cases h
  · split at h
    · next name hname =>
      cases h
      exact ⟨notMem_of_lastParameter? hname, fun f hf => notMem_of_lastParameter? hf⟩
    · cases h

/-! ## Values with a semicolon -/

variable {first rest : List Char}

/-- An opening quote without its closing one stays. -/
theorem unquote_open (h : '"' ∉ first) :
    unquote ('"' :: Text.trimEnd first) = String.ofList ('"' :: Text.trimEnd first) := by
  have hquote : Text.isBlankChar '"' = false := by decide
  have hbare : Text.trimChars ('"' :: Text.trimEnd first) = '"' :: Text.trimEnd first := by
    have htrimmed := Text.trimEnd_append_cons hquote [] (Text.trimEnd first)
    rw [List.nil_append, Text.trimEnd_trimEnd] at htrimmed
    rw [Text.trimChars, List.dropWhile_cons_of_neg (by simp [hquote])]
    exact htrimmed
  rw [unquote, hbare]
  dsimp only
  rw [if_neg]
  rintro ⟨hlength, hwithin | hwithin⟩
  · have hlast : ('"' :: Text.trimEnd first).getLast? = some '"' := by
      rw [Bool.and_eq_true, beq_iff_eq, beq_iff_eq] at hwithin
      exact hwithin.2
    cases htrim : Text.trimEnd first with
    | nil => simp [htrim] at hlength
    | cons a as =>
      rw [htrim, List.getLast?_cons_cons] at hlast
      exact h (Text.mem_of_mem_trimEnd (htrim ▸ List.mem_of_getLast? hlast))
  · revert hwithin
    simp

/-- What is left of a file name up to a semicolon is no path. -/
theorem isPath_open (hplain : ∀ c ∈ first, c ≠ '/' ∧ c ≠ '\\' ∧ c ≠ '\x00') :
    isPath (String.ofList ('"' :: Text.trimEnd first)) = false := by
  have hquote : ∀ s : String, s.toList.head? ≠ some '"' →
      String.ofList ('"' :: Text.trimEnd first) ≠ s := by
    rintro s hs rfl
    exact hs (by rw [String.toList_ofList]; rfl)
  refine isPath_eq_false ?_ (hquote "." (by decide)) (hquote ".." (by decide))
  rw [String.toList_ofList, List.forall_mem_cons]
  exact ⟨by decide, fun c hc => hplain c (Text.mem_of_mem_trimEnd hc)⟩

/-- The pieces of a disposition whose file name has a semicolon. -/
theorem splitOn_dispositionText (hname : ';' ∉ name.toList)
    (hsplit : filename.toList = first ++ ';' :: rest) (hfirst : ';' ∉ first) :
    (dispositionText name (some filename)).toList.splitOn ';' =
      "form-data".toList :: parameter "name".toList name.toList ::
        (' ' :: ("filename".toList ++ '=' :: '"' :: first)) :: (rest ++ ['"']).splitOn ';' := by
  have htext : (dispositionText name (some filename)).toList = "form-data".toList ++ ';' ::
      (parameter "name".toList name.toList ++ ';' ::
        (' ' :: ("filename".toList ++ '=' :: '"' :: first) ++ ';' :: (rest ++ ['"']))) := by
    rw [toList_dispositionText]
    simp [dispositionPieces, parameter, hsplit, List.intercalate_cons_cons]
  have hparameter : ';' ∉ parameter "name".toList name.toList := by
    simp [parameter, hname]
  have hopen : ';' ∉ ' ' :: ("filename".toList ++ '=' :: '"' :: first) := by
    simp [hfirst]
  rw [htext, List.splitOn_append_cons_self_of_not_mem (by decide),
    List.splitOn_append_cons_self_of_not_mem hparameter,
    List.splitOn_append_cons_self_of_not_mem hopen]

/-- A parameter whose value begins with a quote, whether or not it ends with one. -/
theorem parameter?_quote (key : String) {a : Char} {cs : List Char} (hkey : Text.Trimmed (a :: cs))
    (heq : '=' ∉ a :: cs) (v : List Char) :
    parameter? key (' ' :: (a :: cs ++ '=' :: '"' :: v)) =
      if Text.sameIgnoringCase (a :: cs) key.toList then some ('"' :: Text.trimEnd v)
      else none := by
  have hquote : Text.isBlankChar '"' = false := by decide
  have hpiece : Text.trimChars (' ' :: (a :: cs ++ '=' :: '"' :: v)) =
      a :: cs ++ '=' :: '"' :: Text.trimEnd v := by
    have hend := Text.trimEnd_append_cons hquote (a :: cs ++ ['=']) v
    rw [Text.trimChars, List.dropWhile_cons_of_pos (by decide), List.cons_append,
      List.dropWhile_cons_of_neg (by simp [hkey.front a rfl])]
    simpa using hend
  rw [parameter?, hpiece, Text.splitFirst_append heq]
  dsimp only
  rw [Text.trimChars_of_trimmed hkey]

theorem parameter?_name (name : String) :
    parameter? "name" (parameter "name".toList name.toList) =
      some ('"' :: (name.toList ++ ['"'])) := by
  have htrimmed : Text.Trimmed "name".toList := ⟨by rintro c ⟨⟩; decide, by rintro c ⟨⟩; decide⟩
  refine (parameter?_quote "name" htrimmed (by decide) (name.toList ++ ['"'])).trans ?_
  rw [if_pos (by decide), Text.trimEnd_concat (by decide)]

theorem parameter?_filename (v : List Char) :
    parameter? "name" (' ' :: ("filename".toList ++ '=' :: '"' :: v)) = none ∧
      parameter? "filename" (' ' :: ("filename".toList ++ '=' :: '"' :: v)) =
        some ('"' :: Text.trimEnd v) := by
  have htrimmed : Text.Trimmed "filename".toList :=
    ⟨by rintro c ⟨⟩; decide, by rintro c ⟨⟩; decide⟩
  refine ⟨(parameter?_quote "name" htrimmed (by decide) v).trans ?_,
    (parameter?_quote "filename" htrimmed (by decide) v).trans ?_⟩
  · rw [if_neg (by decide)]
  · rw [if_pos (by decide)]

/-- A file name with a semicolon is cut off there, and what follows it is read as
    parameters. -/
theorem readDisposition_cut (hname : ';' ∉ name.toList)
    (hsplit : filename.toList = first ++ ';' :: rest) (hfirst : ';' ∉ first) (hquote : '"' ∉ first)
    (hplain : ∀ c ∈ first, c ≠ '/' ∧ c ≠ '\\' ∧ c ≠ '\x00') :
    readDisposition (dispositionText name (some filename)) =
      if NamesPath ((rest ++ ['"']).splitOn ';') then
        .error (.invalidDisposition .pathCharacters)
      else .ok ⟨(lastParameter? "name" ((rest ++ ['"']).splitOn ';')).getD name,
        some ((lastParameter? "filename" ((rest ++ ['"']).splitOn ';')).getD
          (String.ofList ('"' :: Text.trimEnd first)))⟩ := by
  have hform : ∀ key, parameter? key "form-data".toList = none := fun _ => rfl
  have hnamed := parameter?_name name
  have hunnamed := parameter?_filename_of_name hnamed
  obtain ⟨hopen, hfiled⟩ := parameter?_filename first
  have hpaths : ∀ pieces, NamesPath ("form-data".toList :: parameter "name".toList name.toList ::
      (' ' :: ("filename".toList ++ '=' :: '"' :: first)) :: pieces) ↔ NamesPath pieces := by
    intro pieces
    rw [namesPath_cons_none (hform _), namesPath_cons_none hunnamed, namesPath_cons_some hfiled,
      unquote_open hquote, isPath_open hplain]
    exact or_iff_right Bool.false_ne_true
  rw [readDisposition_eq, splitOn_dispositionText hname hsplit hfirst]
  simp only [hpaths]
  rw [lastParameter?_cons_none (hform _), lastParameter?_cons_none (hform _),
    lastParameter?_cons_some hnamed, lastParameter?_cons_none hunnamed,
    lastParameter?_cons_none hopen, lastParameter?_cons_some hfiled, unquote_quoted,
    unquote_open hquote, String.ofList_toList]

/-! ## The main statement -/

/-- **A value in quotes is read as written if and only if there is no semicolon in it.**  A
    file name with a semicolon is cut off there and keeps its opening quote, and what
    follows is read as parameters: the last file name among them counts, and the last
    name among them is the name of the part. -/
theorem readDisposition_quoted (name filename : String) (hname : Quotable name)
    (hfilename : Quotable filename) (hplain : PlainName filename) :
    (readDisposition (dispositionText name (some filename)) = .ok ⟨name, some filename⟩ ↔
        ';' ∉ name.toList ∧ ';' ∉ filename.toList) ∧
      ∀ first rest, filename.toList = first ++ ';' :: rest → ';' ∉ first → ';' ∉ name.toList →
        readDisposition (dispositionText name (some filename)) =
          if NamesPath ((rest ++ ['"']).splitOn ';') then
            .error (.invalidDisposition .pathCharacters)
          else .ok ⟨(lastParameter? "name" ((rest ++ ['"']).splitOn ';')).getD name,
            some ((lastParameter? "filename" ((rest ++ ['"']).splitOn ';')).getD
              (String.ofList ('"' :: Text.trimEnd first)))⟩ := by
  refine ⟨⟨fun h => ?_, fun ⟨hname', hfilename'⟩ => ?_⟩, ?_⟩
  · obtain ⟨hname', hfilename'⟩ := notMem_of_readDisposition h
    exact ⟨hname', hfilename' filename rfl⟩
  · have hwritable : Part.Writable ⟨name, some filename, none, []⟩ :=
      { name := hname.plainParameter hname'
        filename := by
          rintro f ⟨⟩
          exact ⟨hfilename.plainParameter hfilename', hplain.chars, hplain.ne_dot, hplain.ne_dots⟩
        contentType := by rintro t ⟨⟩ }
    have hread := readDisposition_dispositionText hwritable
    exact hread
  · intro first rest hsplit hfirst hname'
    have hmem : ∀ c ∈ first, c ∈ filename.toList := by
      intro c hc
      rw [hsplit]
      exact List.mem_append_left _ hc
    exact readDisposition_cut hname' hsplit hfirst (fun hc => (hfilename _ (hmem _ hc)).1 rfl)
      fun c hc => hplain.chars c (hmem c hc)

/-- Equals signs, commas and blanks are no harm; a semicolon is. -/
theorem readDisposition_quoted_semicolon :
    Quotable "f" ∧ Quotable "a=b, c.pdf" ∧ PlainName "a=b, c.pdf" ∧
      readDisposition (dispositionText "f" (some "a=b, c.pdf")) = .ok ⟨"f", some "a=b, c.pdf"⟩ ∧
      readDisposition (dispositionText "f" (some "a ; b.pdf")) = .ok ⟨"f", some "\"a"⟩ := by
  have hname : Quotable "f" := by decide
  have hfilename : Quotable "a=b, c.pdf" := by decide
  have hplain : PlainName "a=b, c.pdf" := isPath_eq_false_iff.1 (by decide)
  obtain ⟨hread, -⟩ := readDisposition_quoted "f" "a=b, c.pdf" hname hfilename hplain
  obtain ⟨-, hcut⟩ := readDisposition_quoted "f" "a ; b.pdf" hname (by decide)
    (isPath_eq_false_iff.1 (by decide))
  refine ⟨hname, hfilename, hplain, hread.2 (by decide), ?_⟩
  rw [hcut ['a', ' '] [' ', 'b', '.', 'p', 'd', 'f'] (by decide) (by decide) (by decide)]
  decide +kernel

/-- What stands in the quotes of a file name gives the part another name. -/
theorem readDisposition_renames :
    Quotable "f" ∧ Quotable "a;name=g;b" ∧ PlainName "a;name=g;b" ∧
      dispositionText "f" (some "a;name=g;b") = "form-data; name=\"f\"; filename=\"a;name=g;b\"" ∧
      readDisposition (dispositionText "f" (some "a;name=g;b")) = .ok ⟨"g", some "\"a"⟩ :=
  ⟨by decide, by decide, isPath_eq_false_iff.1 (by decide), by decide +kernel, by decide +kernel⟩

end FormIntake.Multipart
