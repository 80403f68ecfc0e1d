/-
  FormIntake — parts written as a body.

  `Reader.encode` writes parts as a client does: a `Content-Disposition` line, a
  `Content-Type` line where there is one, and the payload as it is.

  `readDisposition_dispositionText` and `noteAll_headerLines` read back what is
  written about a part, `readBlocks_encode` the parts one after the other, and
  `readAll_encode` the whole body: parts that can be written and are within the
  limits are what is read.
-/
import FormIntake.Proofs.Multipart.Layout
import FormIntake.Proofs.Text

namespace FormIntake.Multipart

/-! ## Writing -/

/-- The value of the disposition line. -/
def dispositionText (name : String) (filename : Option String) : String :=
  "form-data; name=\"" ++ name ++ "\"" ++ filename.elim "" fun f => "; filename=\"" ++ f ++ "\""

/-- The header lines of a part. -/
def Part.headerLines (p : Part) : List String :=
  ("Content-Disposition: " ++ dispositionText p.name p.filename) ::
    (p.contentType.map ("Content-Type: " ++ ·)).toList

/-- A part as it stands in a body. -/
def Part.block (p : Part) : Block := ⟨p.headerLines.map Bytes.ofText, p.data⟩

/-- A parameter value that needs no escape. -/
def PlainParameter (v : String) : Prop :=
  ∀ c ∈ v.toList, c ≠ '"' ∧ c ≠ ';' ∧ c ≠ '\r' ∧ c ≠ '\n'

instance (v : String) : Decidable (PlainParameter v) :=
  List.decidableBAll _ v.toList

/-- What header lines can say about a part. -/
structure Part.Writable (p : Part) : Prop where
  name : PlainParameter p.name
  filename : ∀ f, p.filename = some f → PlainParameter f ∧
    (∀ c ∈ f.toList, c ≠ '/' ∧ c ≠ '\\' ∧ c ≠ '\x00') ∧ f ≠ "." ∧ f ≠ ".."
  contentType : ∀ t, p.contentType = some t →
    '\r' ∉ t.toList ∧ '\n' ∉ t.toList ∧ Text.Trimmed t.toList

namespace Reader

/-- Parts as a body. -/
def encode (r : Reader) (parts : List Part) : Bytes :=
  layout r.marker (parts.map Part.block) ++ Bytes.crlf

/-- The bytes of a part up to the end of its empty line. -/
def headerSize (r : Reader) (p : Part) : Nat :=
  r.marker.length + 2 + (headerBytes p.block.lines).length

/-- The bytes of parts that count for the limit of the request. -/
def charge (r : Reader) : List Part → Nat
  | [] => 0
  | p :: parts => r.headerSize p + p.data.length + r.charge parts

/-- The limits hold for the parts. -/
structure Fits (r : Reader) (parts : List Part) : Prop where
  headers : ∀ p ∈ parts, r.headerSize p ≤ maxHeaderBytes
  payload : ∀ p ∈ parts, p.data.length ≤
    if p.filename.isSome then r.limits.attachment else r.limits.field
  total : r.charge parts ≤ r.limits.request
  count : parts.length ≤ r.limits.parts

end Reader

/-! ## Reading the disposition back -/

/-- A parameter as it stands between two semicolons. -/
def parameter (key v : List Char) : List Char := ' ' :: (key ++ '=' :: '"' :: (v ++ ['"']))

theorem unquote_quoted (v : List Char) : unquote ('"' :: (v ++ ['"'])) = String.ofList v := by
  have hbare : Text.trimChars ('"' :: (v ++ ['"'])) = '"' :: (v ++ ['"']) :=
    Text.trimChars_of_trimmed (Text.trimmed_of_ends (by decide) (by decide) v)
  have hlast : ('"' :: (v ++ ['"'])).getLast? = some '"' := by
    rw [← List.cons_append, List.getLast?_concat]
  rw [unquote, hbare]
  simp [hlast]

/-- A parameter is no `form-data`: there is an equals sign in it. -/
theorem not_formData {cs : List Char} (h : '=' ∈ cs) :
    Text.sameIgnoringCase cs "form-data".toList = false := by
  refine Bool.eq_false_iff.2 fun hsame => ?_
  have hlower : Text.lower cs = Text.lower "form-data".toList := by
    simpa [Text.sameIgnoringCase] using hsame
  have hmem : '=' ∈ Text.lower cs := List.mem_map.2 ⟨'=', h, by decide⟩
  rw [hlower] at hmem
  revert hmem
  decide

/-- What a parameter says is taken into account as it stands between its quotes. -/
theorem note_parameter (d : DispositionParameters) {a : Char} {key v : List Char}
    (hkey : Text.Trimmed (a :: key)) (heq : '=' ∉ a :: key) :
    d.note (parameter (a :: key) v) =
      if Text.sameIgnoringCase (a :: key) "name".toList then
        .ok { d with name := some (String.ofList v) }
      else if Text.sameIgnoringCase (a :: key) "filename".toList then
        if isPath (String.ofList v) then .error (.invalidDisposition .pathCharacters)
        else .ok { d with filename := some (String.ofList v) }
      else .ok d := by
  have hpiece : Text.trimChars (parameter (a :: key) v) =
      a :: key ++ '=' :: '"' :: (v ++ ['"']) := by
    have hquote : Text.isBlankChar '"' = false := by decide
    have htrimmed := Text.trimmed_of_ends (hkey.front a rfl) hquote (key ++ '=' :: '"' :: v)
    rw [parameter, Text.trimChars_space]
    · simpa using htrimmed
  rw [DispositionParameters.note]
  dsimp only
  rw [hpiece, not_formData (by simp), Text.splitFirst_append heq]
  dsimp only
  rw [Text.trimChars_of_trimmed hkey, unquote_quoted]
  rfl

theorem note_name (d : DispositionParameters) (v : String) :
    d.note (parameter "name".toList v.toList) = .ok { d with name := some v } := by
  have htrimmed : Text.Trimmed "name".toList := ⟨by rintro c ⟨⟩; decide, by rintro c ⟨⟩; decide⟩
  refine (note_parameter d htrimmed (by decide)).trans ?_
  rw [if_pos (by decide), String.ofList_toList]

theorem note_filename (d : DispositionParameters) {v : String} (hv : isPath v = false) :
    d.note (parameter "filename".toList v.toList) = .ok { d with filename := some v } := by
  have htrimmed : Text.Trimmed "filename".toList :=
    ⟨by rintro c ⟨⟩; decide, by rintro c ⟨⟩; decide⟩
  refine (note_parameter d htrimmed (by decide)).trans ?_
  rw [if_neg (by decide), if_pos (by decide), String.ofList_toList, hv]
  rfl

theorem note_formData (d : DispositionParameters) : d.note "form-data".toList = .ok d := by
  rw [DispositionParameters.note]
  exact if_pos (by decide)

/-- What stands between the semicolons of a disposition. -/
def dispositionPieces (name : String) (filename : Option String) : List (List Char) :=
  "form-data".toList :: parameter "name".toList name.toList ::
    (filename.map fun f => parameter "filename".toList f.toList).toList

theorem toList_dispositionText (name : String) (filename : Option String) :
    (dispositionText name filename).toList =
      [';'].intercalate (dispositionPieces name filename) := by
  have hname : "form-data; name=\"".toList =
      "form-data".toList ++ ';' :: ' ' :: ("name".toList ++ ['=', '"']) := rfl
  have hfile : "; filename=\"".toList = ';' :: ' ' :: ("filename".toList ++ ['=', '"']) := rfl
  have hquote : "\"".toList = ['"'] := rfl
  unfold dispositionText
  cases filename with
  | none =>
    rw [String.toList_append, String.toList_append, String.toList_append, hname, hquote]
    simp [dispositionPieces, parameter, List.intercalate_cons_cons]
  | some f =>
    rw [String.toList_append, String.toList_append, String.toList_append, hname, hquote]
    simp [dispositionPieces, parameter, List.intercalate_cons_cons, hfile]

theorem semicolon_notMem_parameter {key : List Char} {v : String} (hkey : ';' ∉ key)
    (hv : PlainParameter v) : ';' ∉ parameter key v.toList := by
  have hv : ';' ∉ v.toList := fun h => (hv ';' h).2.1 rfl
  simp [parameter, hkey, hv]

theorem isPath_eq_false {f : String} (hchars : ∀ c ∈ f.toList, c ≠ '/' ∧ c ≠ '\\' ∧ c ≠ '\x00')
    (hdot : f ≠ ".") (hdots : f ≠ "..") : isPath f = false := by
  have hany : (f.toList.any fun c => c == '/' || c == '\\' || c == '\x00') = false := by
    refine List.any_eq_false.2 fun c hc => ?_
    obtain ⟨h1, h2, h3⟩ := hchars c hc
    simp [h1, h2, h3]
  simp [isPath, hany, hdot, hdots]

/-- **A disposition is read back.** -/
theorem readDisposition_dispositionText {p : Part} (h : p.Writable) :
    readDisposition (dispositionText p.name p.filename) = .ok ⟨p.name, p.filename⟩ := by
  have hpieces : ∀ piece ∈ dispositionPieces p.name p.filename, ';' ∉ piece := by
    intro piece hpiece
    rw [dispositionPieces, List.mem_cons, List.mem_cons, Option.mem_toList, Option.map_eq_some_iff]
      at hpiece
    rcases hpiece with rfl | rfl | ⟨f, hf, rfl⟩
    · decide
    · exact semicolon_notMem_parameter (by decide) h.name
    · exact semicolon_notMem_parameter (by decide) (h.filename f hf).1
  rw [readDisposition, toList_dispositionText,
    List.splitOn_intercalate ';' hpieces (by simp [dispositionPieces]), dispositionPieces]
  cases hfile : p.filename with
  | none =>
    simp only [Option.map_none, Option.toList_none, List.foldlM_cons, note_formData, note_name,
      List.foldlM_nil]
    rfl
  | some f =>
    obtain ⟨-, hchars, hdot, hdots⟩ := h.filename f hfile
    simp only [Option.map_some, Option.toList_some, List.foldlM_cons, note_formData, note_name,
      note_filename _ (isPath_eq_false hchars hdot hdots), List.foldlM_nil]
    rfl

/-! ## Reading header lines back -/

variable {h : Headers} {p : Part}

/-- A header line is read as the value behind its colon. -/
theorem note_headerLine {name v : String} (hname : Text.Trimmed name.toList)
    (hcolon : ':' ∉ name.toList) (hv : Text.Trimmed v.toList) :
    h.note (name ++ ": " ++ v) =
      if Text.sameIgnoringCase name.toList "content-disposition".toList then
        { h with disposition := some v }
      else if Text.sameIgnoringCase name.toList "content-type".toList then
        { h with contentType := some v }
      else h := by
  have hline : (name ++ ": " ++ v).toList = name.toList ++ ':' :: ' ' :: v.toList := by
    simp [String.toList_append]
  rw [Headers.note, hline, Text.splitFirst_append hcolon]
  dsimp only
  rw [Text.trimChars_of_trimmed hname, Text.trimChars_space hv, String.ofList_toList]

theorem note_disposition {v : String} (hv : Text.Trimmed v.toList) :
    h.note ("Content-Disposition: " ++ v) = { h with disposition := some v } := by
  have hname : Text.Trimmed "Content-Disposition".toList :=
    ⟨by rintro c ⟨⟩; decide, by rintro c ⟨⟩; decide⟩
  have hline := note_headerLine (h := h) hname (by decide) hv
  rw [if_pos (by decide)] at hline
  exact hline

theorem note_contentType {v : String} (hv : Text.Trimmed v.toList) :
    h.note ("Content-Type: " ++ v) = { h with contentType := some v } := by
  have hname : Text.Trimmed "Content-Type".toList :=
    ⟨by rintro c ⟨⟩; decide, by rintro c ⟨⟩; decide⟩
  have hline := note_headerLine (h := h) hname (by decide) hv
  rw [if_neg (by decide), if_pos (by decide)] at hline
  exact hline

theorem trimmed_dispositionText (name : String) (filename : Option String) :
    Text.Trimmed (dispositionText name filename).toList := by
  have hquote : Text.isBlankChar '"' = false := by decide
  have hf : Text.isBlankChar 'f' = false := by decide
  obtain ⟨cs, hcs⟩ : ∃ cs, (dispositionText name filename).toList = 'f' :: (cs ++ ['"']) := by
    rw [toList_dispositionText]
    cases filename with
    | none =>
      refine ⟨"orm-data; name=\"".toList ++ name.toList, ?_⟩
      simp [dispositionPieces, parameter, List.intercalate_cons_cons]
    | some f =>
      refine ⟨"orm-data; name=\"".toList ++ name.toList ++ "\"; filename=\"".toList ++ f.toList, ?_⟩
      simp [dispositionPieces, parameter, List.intercalate_cons_cons]
  rw [hcs]
  exact Text.trimmed_of_ends hf hquote cs

/-- **The header lines of a part are read back.** -/
theorem noteAll_headerLines (hp : p.Writable) :
    Headers.noteAll {} p.block.lines =
      some ⟨some (dispositionText p.name p.filename), p.contentType⟩ := by
  rw [Part.block, Part.headerLines]
  cases htype : p.contentType with
  | none =>
    simp only [Option.map_none, Option.toList_none, List.map_cons, List.map_nil, noteAll_cons,
      Bytes.text?_ofText, Option.bind_some, note_disposition (trimmed_dispositionText ..),
      noteAll_nil]
  | some t =>
    obtain ⟨-, -, htrimmed⟩ := hp.contentType t htype
    simp only [Option.map_some, Option.toList_some, List.map_cons, List.map_nil, noteAll_cons,
      Bytes.text?_ofText, Option.bind_some, note_disposition (trimmed_dispositionText ..),
      note_contentType htrimmed, noteAll_nil]

/-- A text without carriage return is a header line. -/
theorem isLine_ofText {s : String} (hcr : '\r' ∉ s.toList) (hne : Bytes.ofText s ≠ []) :
    IsLine (Bytes.ofText s) := by
  refine ⟨hne, fun hcrlf => Bytes.cr_notMem_ofText hcr ?_⟩
  exact hcrlf.subset (by simp [Bytes.crlf])

theorem cr_notMem_dispositionText (hp : p.Writable) :
    '\r' ∉ (dispositionText p.name p.filename).toList := by
  have hplain : ∀ {v : String}, PlainParameter v → '\r' ∉ v.toList :=
    fun hv h => (hv '\r' h).2.2.1 rfl
  have hname := hplain hp.name
  rw [toList_dispositionText]
  cases hfile : p.filename with
  | none => simp [dispositionPieces, parameter, List.intercalate_cons_cons, hname]
  | some f =>
    have hf := hplain (hp.filename f hfile).1
    simp [dispositionPieces, parameter, List.intercalate_cons_cons, hname, hf]

/-- What is written about a part are header lines. -/
theorem isLine_headerLines (hp : p.Writable) : ∀ line ∈ p.block.lines, IsLine line := by
  intro line hline
  obtain ⟨text, htext, rfl⟩ := List.mem_map.1 hline
  rw [Part.headerLines, List.mem_cons, Option.mem_toList, Option.map_eq_some_iff] at htext
  rcases htext with rfl | ⟨t, ht, rfl⟩
  · refine isLine_ofText ?_ ?_
    · simp [String.toList_append, cr_notMem_dispositionText hp]
    · rw [Bytes.ofText_append]
      exact List.append_ne_nil_of_left_ne_nil (by decide) _
  · obtain ⟨hcr, -, -⟩ := hp.contentType t ht
    refine isLine_ofText ?_ ?_
    · simp [String.toList_append, hcr]
    · rw [Bytes.ofText_append]
      exact List.append_ne_nil_of_left_ne_nil (by decide) _

/-! ## Reading parts back -/

namespace Reader

variable {r : Reader} {c : Charged} {parts : List Part}

/-- A part that is written is read back, and charged for what was written. -/
theorem readBlock_block (hp : p.Writable) (hheader : r.headerSize p ≤ maxHeaderBytes)
    (hpayload : p.data.length ≤ if p.filename.isSome then r.limits.attachment else r.limits.field)
    (htotal : c.total + (r.headerSize p + p.data.length) ≤ r.limits.request)
    (hcount : c.parts + 1 ≤ r.limits.parts) :
    ∃ c', r.readBlock c p.block = .ok (p, c') ∧
      c'.total ≤ c.total + (r.headerSize p + p.data.length) ∧ c'.parts ≤ c.parts + 1 := by
  have hadd := Size.add_le c.total (r.headerSize p)
  have hparts := Size.add_le c.parts 1
  set q := OpenPart.start r.limits p.name p.filename p.contentType with hq
  have hopened : r.opened c ⟨some (dispositionText p.name p.filename), p.contentType⟩
      (r.headerSize p) = .ok (q, ⟨Size.add c.total (r.headerSize p), Size.add c.parts 1⟩) := by
    have hdisposition := readDisposition_dispositionText hp
    exact opened_eq_ok_iff.2 ⟨⟨hheader, by omega⟩, by omega, rfl, _, _, rfl, hdisposition, rfl⟩
  have hsize : q.size + p.data.length ≤ q.limit := by
    rw [hq]
    simpa [OpenPart.start] using hpayload
  obtain ⟨q', total', happ, hle⟩ :
      ∃ q' total', q.append r.limits (Size.add c.total (r.headerSize p)) p.data = .ok (q', total') ∧
        total' ≤ Size.add c.total (r.headerSize p) + p.data.length :=
    OpenPart.append_of_le hsize (by omega)
  refine ⟨⟨total', Size.add c.parts 1⟩, ?_, by dsimp only; omega, hparts⟩
  have hclose := OpenPart.close_of_append happ
  rw [readBlock, noteAll_headerLines hp]
  dsimp only
  rw [show r.marker.length + 2 + (headerBytes p.block.lines).length = r.headerSize p from rfl,
    hopened]
  dsimp only
  rw [show p.block.payload = p.data from rfl, happ, Except.map, hclose]
  rfl

theorem readBlocks_encode (hparts : ∀ p ∈ parts, p.Writable)
    (hheader : ∀ p ∈ parts, r.headerSize p ≤ maxHeaderBytes)
    (hpayload : ∀ p ∈ parts, p.data.length ≤
      if p.filename.isSome then r.limits.attachment else r.limits.field)
    (htotal : c.total + r.charge parts ≤ r.limits.request)
    (hcount : c.parts + parts.length ≤ r.limits.parts) :
    ∃ c', r.readBlocks c (parts.map Part.block) = .ok (parts, c') := by
  induction parts generalizing c with
  | nil => exact ⟨c, rfl⟩
  | cons p parts ih =>
    rw [charge] at htotal
    rw [List.length_cons] at hcount
    simp only [List.forall_mem_cons] at hparts hheader hpayload
    obtain ⟨c', hread, hcharged, hcounted⟩ := readBlock_block (c := c) hparts.1 hheader.1 hpayload.1
      (by omega) (by omega)
    obtain ⟨c'', hrest⟩ := ih (c := c') hparts.2 hheader.2 hpayload.2 (by omega) (by omega)
    refine ⟨c'', ?_⟩
    rw [List.map_cons, readBlocks, hread]
    dsimp only
    rw [hrest]
    rfl

/-- **What is written is read back.** -/
theorem readAll_encode (hr : r.OneLine) (hparts : ∀ p ∈ parts, p.Writable ∧ Clear r.marker p.data)
    (hfits : r.Fits parts) : r.readAll (r.encode parts) = .ok parts := by
  have hlf := hr.unbroken.lf
  have hwf : ∀ b ∈ parts.map Part.block, b.Wf r.marker := by
    intro b hb
    obtain ⟨p, hp, rfl⟩ := List.mem_map.1 hb
    exact ⟨isLine_headerLines (hparts p hp).1, (hparts p hp).2⟩
  have hstart : findDelimiter r.marker true ([] ++ layout r.marker (parts.map Part.block)) =
      some 0 := by
    refine (findDelimiter_eq_some_iff hlf).2 ⟨⟨Or.inl ⟨rfl, rfl⟩, ?_⟩, fun m hm => by omega⟩
    have hopens : Opens r.marker (layout r.marker (parts.map Part.block) ++ []) := opens_layout _ []
    rwa [List.append_nil] at hopens
  obtain ⟨c, hblocks⟩ := readBlocks_encode (r := r) (c := {}) (fun p hp => (hparts p hp).1)
    hfits.headers hfits.payload (by simpa using hfits.total) (by simpa using hfits.count)
  have hread := readAll_layout hlf hwf hstart Bytes.crlf
  rw [hblocks] at hread
  exact hread

/-- A payload full of what is nearly a delimiter, and a file without name and
    content, at the very limits. -/
theorem readAll_encode_lookalikes :
    let r : Reader := ⟨"b", { field := 13, attachment := 0, request := 163, parts := 2 }⟩
    let parts : List Part := [⟨"a: b", none, some "text/plain; charset=x",
      Bytes.ofText "\r\n--b\r\r\n--b-\r"⟩, ⟨"", some "", none, []⟩]
    r.readAll (r.encode parts) = .ok parts := by
  intro r parts
  have hr : r.OneLine := ⟨by decide, by decide⟩
  have hclear : ∀ p ∈ parts, Clear r.marker p.data := by
    have hfind : ∀ p ∈ parts, findDelimiter r.marker false (p.data ++ Bytes.crlf) = none := by
      decide +kernel
    exact fun p hp => (clear_iff hr.unbroken.lf).2 (hfind p hp)
  have hwritable : ∀ p ∈ parts, p.Writable := by
    intro p hp
    simp only [parts, List.mem_cons, List.not_mem_nil, or_false] at hp
    rcases hp with rfl | rfl
    · refine ⟨by decide, by rintro f ⟨⟩, ?_⟩
      rintro t ⟨⟩
      exact ⟨by decide, by decide, by rintro c ⟨⟩; decide, by rintro c ⟨⟩; decide⟩
    · refine ⟨by decide, ?_, by rintro t ⟨⟩⟩
      rintro f ⟨⟩
      exact ⟨by decide, by simp, by decide, by decide⟩
  exact readAll_encode hr (fun p hp => ⟨hwritable p hp, hclear p hp⟩)
    ⟨by decide +kernel, by decide +kernel, by decide +kernel, by decide⟩

end Reader

end FormIntake.Multipart
