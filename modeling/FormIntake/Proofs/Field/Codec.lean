/-
  FormIntake — form definitions, written and read back.

  The options of each type are read back from their members (`FieldKind.ofJson?_toMembers`).
  No member has one of the keys that a field has itself (`FieldKind.key_notMem_ownKeys`), so
  they can stand beside these, and a field is read back from its object
  (`Field.ofJson?_toJson`).

  * `Field.InRange`: the counts of a field fit in their words.
  * `Field.doubles`: the bounds of its range of values.
  * `Field.read?_listToJson`: a list of fields is read back from its text, if its counts are
    in range and its doubles are legible.
-/
import FormIntake.Field.Codec
import FormIntake.Proofs.Calendar.Date
import FormIntake.Proofs.Json.Record

namespace FormIntake

open Json

/-! ## Names -/

theorem named?_nameOf_text (r : CountRule) : named? textRuleNames (nameOf textRuleNames r) = some r := by
  cases r <;> rfl

theorem named?_nameOf_numberLength (r : CountRule) :
    named? numberLengthRuleNames (nameOf numberLengthRuleNames r) = some r := by
  cases r <;> rfl

theorem named?_nameOf_number (r : NumberRule) :
    named? numberRuleNames (nameOf numberRuleNames r) = some r := by
  cases r <;> rfl

theorem named?_nameOf_date (r : DateRule) : named? dateRuleNames (nameOf dateRuleNames r) = some r := by
  cases r <;> rfl

theorem named?_nameOf_attachmentSize (s : AttachmentSize) :
    named? attachmentSizeNames (nameOf attachmentSizeNames s) = some s := by
  cases s <;> rfl

theorem FieldType.ofName?_name (t : FieldType) : ofName? t.name = some t := by
  cases t <;> rfl

/-! ## Options -/

/-- The count, if there is one, fits in its word. -/
def InSize (count : Option Nat) : Prop := ∀ n, count = some n → n ≤ Size.largest

theorem optional?_readCount {count : Option Nat} (h : InSize count) :
    optional? readCount (ofOption ofNat count) = some count :=
  optional?_ofOption (fun n hn => natural?_ofNat (h n hn)) (by rintro n ⟨⟩)

theorem optional?_double? (d : Option Double) : optional? double? (ofOption ofDouble d) = some d :=
  optional?_ofOption (fun d _ => double?_ofDouble d) (by rintro d ⟨⟩)

theorem readDate_text (s : String) : readDate (.text s) = Date.ofIso? s := by
  rw [readDate, text?, Option.bind_some]

theorem readWeekday_text (s : String) : readWeekday (.text s) = Weekday.ofName? s := by
  rw [readWeekday, text?, Option.bind_some]

theorem optional?_readDate (d : Option Date) :
    optional? readDate (ofOption (fun d => .text d.iso) d) = some d := by
  refine optional?_ofOption (fun d _ => ?_) (by rintro d ⟨⟩)
  rw [readDate_text, d.ofIso?_iso]

theorem optional?_named? {α : Type} [BEq α] {names : List (String × α)}
    (h : ∀ v, named? names (nameOf names v) = some v) (v : Option α) :
    optional? (named? names) (ofOption (nameOf names) v) = some v :=
  optional?_ofOption (fun v _ => h v) (by rintro v ⟨⟩)

theorem CountBound.ofJson?_toJson {key : String} {names : List (String × CountRule)} {b : CountBound}
    (hkey : key ≠ "customVal") (hnames : ∀ r, named? names (nameOf names r) = some r)
    (h : InSize b.given) : ofJson? key names (b.toJson key names) = some b := by
  simp [ofJson?, toJson, fieldsOf?, fieldsOfMembers?, fieldOf?, orElse, hkey, hkey.symm,
    optional?_named? hnames, optional?_readCount h]

theorem CountBound.ofTextJson?_toTextMembers {b : CountBound} (h : InSize b.given) :
    ofTextJson? (.object b.toTextMembers) = some b := by
  simp [ofTextJson?, toTextMembers, fieldsOf?, fieldsOfMembers?, fieldOf?, orElse,
    CountBound.ofJson?_toJson (show "selectedValidation" ≠ "customVal" by decide)
      named?_nameOf_text h]

theorem ValueRange.ofJson?_toJson (r : ValueRange) : ofJson? r.toJson = some r := by
  simp [ofJson?, toJson, fieldsOf?, fieldsOfMembers?, fieldOf?, orElse, optional?_double?]

theorem NumberOptions.ofJson?_toMembers {o : NumberOptions} (h : InSize o.length.given) :
    ofJson? (.object o.toMembers) = some o := by
  simp [ofJson?, ofCheckJson?, toMembers, fieldsOf?, fieldsOfMembers?, fieldOf?, orElse,
    optional?_named? named?_nameOf_number, ValueRange.ofJson?_toJson,
    CountBound.ofJson?_toJson (show "selectedLengthValidation" ≠ "customVal" by decide)
      named?_nameOf_numberLength h]

theorem DecimalOptions.ofJson?_toMembers (o : DecimalOptions) :
    ofJson? (.object o.toMembers) = some o := by
  simp [ofJson?, toMembers, fieldsOf?, fieldsOfMembers?, fieldOf?, orElse, bool?,
    ValueRange.ofJson?_toJson]

theorem EmailOptions.ofJson?_toMembers (o : EmailOptions) :
    ofJson? (.object o.toMembers) = some o := by
  simp [ofJson?, toMembers, fieldsOf?, fieldsOfMembers?, fieldOf?, orElse, bool?, list?_ofTexts]

theorem PhoneOptions.ofJson?_toMembers (o : PhoneOptions) :
    ofJson? (.object o.toMembers) = some o := by
  simp [ofJson?, toMembers, fieldsOf?, fieldsOfMembers?, fieldOf?, orElse, bool?]

theorem DateOptions.ofJson?_toMembers (o : DateOptions) :
    ofJson? (.object o.toMembers) = some o := by
  have hclosed : list? readWeekday (.array (o.closed.map fun d => .text d.shortName)) =
      some o.closed := list?_array fun d _ => by rw [readWeekday_text, d.ofName?_shortName]
  simp [ofJson?, ofCheckJson?, toMembers, fieldsOf?, fieldsOfMembers?, fieldOf?, orElse,
    optional?_named? named?_nameOf_date, optional?_readDate, hclosed]

theorem ChoiceOptions.ofJson?_toMembers (o : ChoiceOptions) :
    ofJson? (.object o.toMembers) = some o := by
  simp [ofJson?, toMembers, fieldsOf?, fieldsOfMembers?, fieldOf?, orElse, bool?, list?_ofTexts]

theorem CheckboxOptions.ofJson?_toMembers {o : CheckboxOptions} (hfewest : InSize o.fewest)
    (hmost : InSize o.most) : ofJson? (.object o.toMembers) = some o := by
  simp [ofJson?, readBounds, toMembers, fieldsOf?, fieldsOfMembers?, fieldOf?, orElse, bool?,
    list?_ofTexts, optional?_readCount hfewest, optional?_readCount hmost]

theorem RatingOptions.ofJson?_toMembers {o : RatingOptions} (h : o.steps ≤ largestStep) :
    ofJson? (.object o.toMembers) = some o := by
  simp [ofJson?, ofScaleJson?, toMembers, fieldsOf?, fieldsOfMembers?, fieldOf?, orElse,
    natural?_ofNat h]

theorem AttachmentOptions.ofJson?_toMembers (o : AttachmentOptions) :
    ofJson? (.object o.toMembers) = some o := by
  simp [ofJson?, toMembers, fieldsOf?, fieldsOfMembers?, fieldOf?, orElse,
    named?_nameOf_attachmentSize]

theorem ChildrenOptions.ofJson?_toMembers (o : ChildrenOptions) :
    ofJson? (.object o.toMembers) = some o := by
  simp [ofJson?, toMembers, fieldsOf?, fieldsOfMembers?, fieldOf?, orElse, bool?, list?_ofTexts]

/-! ## Tables -/

theorem Column.kindPlace?_textfield : kindPlace? (.text "textfield") = some 0 := rfl

theorem Column.kindPlace?_dropdown : kindPlace? (.text "dropdown") = some 1 := rfl

/-- **A column is read back**: its kind stands beside its title and requiredness. -/
theorem Column.ofJson?_toJson (c : Column) : ofJson? c.toJson = some c := by
  obtain ⟨title, required, kind⟩ := c
  cases kind with
  | shortText =>
    simp [ofJson?, toJson, kindMembers, members?, fieldOf?, orElse, text?, bool?, readKind,
      kindPlace?_textfield]
  | dropdown options =>
    simp [ofJson?, toJson, kindMembers, members?, fieldOf?, orElse, text?, bool?, readKind,
      kindPlace?_dropdown, list?_ofTexts]

theorem TableOptions.ofJson?_toMembers {o : TableOptions} (hfewest : o.fewestRows ≤ Size.largest)
    (hmost : InSize o.mostRows) : ofJson? (.object o.toMembers) = some o := by
  have hcolumns : list? Column.ofJson? (.array (o.columns.map Column.toJson)) = some o.columns :=
    list?_array fun c _ => c.ofJson?_toJson
  have hrows : readCount (ofNat o.fewestRows) = some o.fewestRows := natural?_ofNat hfewest
  simp [ofJson?, toMembers, fieldsOf?, fieldsOfMembers?, fieldOf?, orElse, bool?, hrows,
    optional?_readCount hmost, hcolumns]

/-! ## Kinds -/

namespace FieldKind

/-- The counts among the options fit in their words. -/
def InRange : FieldKind → Prop
  | shortText b | longText b => InSize b.given
  | number o => InSize o.length.given
  | checkbox o => InSize o.fewest ∧ InSize o.most
  | rating o => o.steps ≤ largestStep
  | table o => o.fewestRows ≤ Size.largest ∧ InSize o.mostRows
  | _ => True

/-- The bounds of the range of values. -/
def doubles : FieldKind → List Double
  | number o => o.range.min.toList ++ o.range.max.toList
  | decimal o => o.range.min.toList ++ o.range.max.toList
  | _ => []

/-- **The options of a type are read back from their members.** -/
theorem ofJson?_toMembers {k : FieldKind} (h : k.InRange) :
    ofJson? (.object k.toMembers) k.type = some k := by
  cases k with
  | heading | statement | image | yesNo | nric | uen | country => rfl
  | shortText b | longText b => simp [ofJson?, type, toMembers, CountBound.ofTextJson?_toTextMembers h]
  | number o => simp [ofJson?, type, toMembers, NumberOptions.ofJson?_toMembers h]
  | decimal o => simp [ofJson?, type, toMembers, DecimalOptions.ofJson?_toMembers]
  | email o => simp [ofJson?, type, toMembers, EmailOptions.ofJson?_toMembers]
  | mobile o | homePhone o => simp [ofJson?, type, toMembers, PhoneOptions.ofJson?_toMembers]
  | date o => simp [ofJson?, type, toMembers, DateOptions.ofJson?_toMembers]
  | dropdown o | radio o => simp [ofJson?, type, toMembers, ChoiceOptions.ofJson?_toMembers]
  | checkbox o => simp [ofJson?, type, toMembers, CheckboxOptions.ofJson?_toMembers h.1 h.2]
  | rating o => simp [ofJson?, type, toMembers, RatingOptions.ofJson?_toMembers h]
  | table o => simp [ofJson?, type, toMembers, TableOptions.ofJson?_toMembers h.1 h.2]
  | attachment o => simp [ofJson?, type, toMembers, AttachmentOptions.ofJson?_toMembers]
  | children o => simp [ofJson?, type, toMembers, ChildrenOptions.ofJson?_toMembers]

/-- The keys of the options of a type. -/
def optionKeys : FieldType → List String
  | .shortText | .longText | .number => ["validationOptions"]
  | .decimal => ["validateByValue", "validationOptions"]
  | .email => ["hasAllowedEmailDomains", "allowedEmailDomains"]
  | .mobile | .homePhone => ["allowIntlNumbers"]
  | .date => ["dateValidation", "invalidDays"]
  | .dropdown | .radio => ["fieldOptions", "othersRadioButton"]
  | .checkbox => ["fieldOptions", "othersRadioButton", "validateByValue", "ValidationOptions"]
  | .rating => ["ratingOptions"]
  | .table => ["minimumRows", "addMoreRows", "maximumRows", "columns"]
  | .attachment => ["attachmentSize"]
  | .children => ["childrenSubFields", "allowMultiple"]
  | _ => []

theorem keys_toMembers (k : FieldKind) : k.toMembers.map Prod.fst = optionKeys k.type := by
  cases k <;> rfl

/-- **No option has a key of the field itself.** -/
theorem key_notMem_ownKeys (k : FieldKind) : ∀ m ∈ k.toMembers, m.1 ∉ Field.ownKeys := by
  have hkeys : ∀ t, ∀ key ∈ optionKeys t, key ∉ Field.ownKeys := by
    intro t
    cases t <;> decide
  intro m hm
  exact hkeys k.type m.1 (keys_toMembers k ▸ List.mem_map_of_mem hm)

end FieldKind

/-! ## What is written fits -/

section

variable {p : Double → Prop} {depth : Nat}

theorem fits_count {count : Option Nat} (h : InSize count) : Fits p depth (ofOption ofNat count) :=
  fits_ofOption fun n hn => fits_ofNat (h n hn)

theorem fits_name {α : Type} [BEq α] (names : List (String × α)) (v : Option α) :
    Fits p depth (ofOption (nameOf names) v) :=
  fits_ofOption fun _ _ => .text

theorem fits_day (d : Option Date) : Fits p depth (ofOption (fun d => .text d.iso) d) :=
  fits_ofOption fun _ _ => .text

theorem CountBound.fits_toJson (key : String) (names : List (String × CountRule)) {b : CountBound}
    (h : InSize b.given) : Fits p (depth + 1) (b.toJson key names) := by
  refine .object ?_
  simp only [List.forall_mem_cons]
  exact ⟨fits_name _ _, fits_count h, by simp⟩

theorem ValueRange.fits_toJson {r : ValueRange}
    (h : ∀ d ∈ r.min.toList ++ r.max.toList, p d) : Fits p (depth + 1) r.toJson := by
  refine .object ?_
  simp only [List.forall_mem_cons]
  refine ⟨fits_ofOption fun d hd => fits_ofDouble (h d ?_),
    fits_ofOption fun d hd => fits_ofDouble (h d ?_), by simp⟩
  · simp [hd]
  · simp [hd]

theorem Column.fits_toJson (c : Column) : Fits p (depth + 2) c.toJson := by
  obtain ⟨title, required, kind⟩ := c
  refine .object ?_
  cases kind with
  | shortText =>
    simp only [kindMembers, List.cons_append, List.nil_append, List.forall_mem_cons]
    exact ⟨.text, .bool, .text, by simp⟩
  | dropdown options =>
    simp only [kindMembers, List.cons_append, List.nil_append, List.forall_mem_cons]
    exact ⟨.text, .bool, .text, fits_ofTexts _, by simp⟩

/-- **The options of a type fit**, in the columns of tables three levels deep. -/
theorem FieldKind.fits_toMembers {k : FieldKind} (h : k.InRange) (hdoubles : ∀ d ∈ k.doubles, p d) :
    ∀ m ∈ k.toMembers, Fits p 3 m.2 := by
  cases k with
  | heading | statement | image | yesNo | nric | uen | country => simp [toMembers]
  | shortText b | longText b =>
    simp only [toMembers, CountBound.toTextMembers, List.forall_mem_cons]
    exact ⟨CountBound.fits_toJson _ _ h, by simp⟩
  | number o =>
    simp only [toMembers, NumberOptions.toMembers, List.forall_mem_cons]
    refine ⟨.object ?_, by simp⟩
    simp only [List.forall_mem_cons]
    exact ⟨fits_name _ _, CountBound.fits_toJson _ _ h, ValueRange.fits_toJson hdoubles, by simp⟩
  | decimal o =>
    simp only [toMembers, DecimalOptions.toMembers, List.forall_mem_cons]
    exact ⟨.bool, ValueRange.fits_toJson hdoubles, by simp⟩
  | email o =>
    simp only [toMembers, EmailOptions.toMembers, List.forall_mem_cons]
    exact ⟨.bool, fits_ofTexts _, by simp⟩
  | mobile o | homePhone o =>
    simp only [toMembers, PhoneOptions.toMembers, List.forall_mem_cons]
    exact ⟨.bool, by simp⟩
  | date o =>
    simp only [toMembers, DateOptions.toMembers, List.forall_mem_cons]
    refine ⟨.object ?_, fits_array fun _ _ => .text, by simp⟩
    simp only [List.forall_mem_cons]
    exact ⟨fits_name _ _, fits_day _, fits_day _, by simp⟩
  | dropdown o | radio o =>
    simp only [toMembers, ChoiceOptions.toMembers, List.forall_mem_cons]
    exact ⟨fits_ofTexts _, .bool, by simp⟩
  | checkbox o =>
    simp only [toMembers, CheckboxOptions.toMembers, List.forall_mem_cons]
    refine ⟨fits_ofTexts _, .bool, .bool, .object ?_, by simp⟩
    simp only [List.forall_mem_cons]
    exact ⟨fits_count h.1, fits_count h.2, by simp⟩
  | rating o =>
    have hsteps : o.steps ≤ Size.largest := Nat.le_trans h (by decide)
    simp only [toMembers, RatingOptions.toMembers, List.forall_mem_cons]
    refine ⟨.object ?_, by simp⟩
    simp only [List.forall_mem_cons]
    exact ⟨fits_ofNat hsteps, by simp⟩
  | table o =>
    simp only [toMembers, TableOptions.toMembers, List.forall_mem_cons]
    exact ⟨fits_ofNat h.1, .bool, fits_count h.2, fits_array fun c _ => c.fits_toJson, by simp⟩
  | attachment o =>
    simp only [toMembers, AttachmentOptions.toMembers, List.forall_mem_cons]
    exact ⟨.text, by simp⟩
  | children o =>
    simp only [toMembers, ChildrenOptions.toMembers, List.forall_mem_cons]
    exact ⟨fits_ofTexts _, .bool, by simp⟩

end

/-! ## Fields -/

namespace Field

/-- The counts of the field fit in their words. -/
def InRange (f : Field) : Prop := f.kind.InRange

/-- The bounds of the range of values of the field. -/
def doubles (f : Field) : List Double := f.kind.doubles

theorem fieldOf?_ownKey {own : List (String × Json)} {key : String} (hkey : key ∈ ownKeys)
    (k : FieldKind) : fieldOf? [key] (own ++ k.toMembers) = fieldOf? [key] own := by
  have hnone : k.toMembers.filter (fun m => [key].contains m.1) = [] := by
    rw [List.filter_eq_nil_iff]
    intro m hm hsame
    have heq : m.1 = key := by simpa using hsame
    exact FieldKind.key_notMem_ownKeys k m hm (heq ▸ hkey)
  rw [fieldOf?, fieldOf?, List.filter_append, hnone, List.append_nil]

theorem filter_ownKeys {own : List (String × Json)} (hown : ∀ m ∈ own, m.1 ∈ ownKeys)
    (k : FieldKind) :
    (own ++ k.toMembers).filter (fun m => !ownKeys.contains m.1) = k.toMembers := by
  have hown' : own.filter (fun m => !ownKeys.contains m.1) = [] := by
    rw [List.filter_eq_nil_iff]
    intro m hm
    simpa using hown m hm
  have hkind : k.toMembers.filter (fun m => !ownKeys.contains m.1) = k.toMembers := by
    rw [List.filter_eq_self]
    intro m hm
    simpa using FieldKind.key_notMem_ownKeys k m hm
  rw [List.filter_append, hown', hkind, List.nil_append]

/-- **A field is read back from its object.** -/
theorem ofJson?_toJson {f : Field} (h : f.InRange) : ofJson? f.toJson = some f := by
  have hkind := FieldKind.ofJson?_toMembers h
  have hid : readType (.text f.type.name) = some f.kind.type := FieldType.ofName?_name _
  rw [toJson, ofJson?]
  simp only [members?, Option.bind_eq_bind, Option.bind_some]
  rw [fieldOf?_ownKey (by decide), fieldOf?_ownKey (by decide), fieldOf?_ownKey (by decide),
    fieldOf?_ownKey (by decide), filter_ownKeys (by simp [ownKeys])]
  simp [fieldOf?, orElse, text?, bool?, hid, hkind]

theorem fits_toJson {p : Double → Prop} {f : Field} (h : f.InRange) (hdoubles : ∀ d ∈ f.doubles, p d) :
    Fits p 4 f.toJson := by
  refine .object ?_
  simp only [List.cons_append, List.nil_append, List.forall_mem_cons]
  exact ⟨.text, .text, .bool, .text, FieldKind.fits_toMembers h hdoubles⟩

theorem listOfJson?_listToJson {fs : List Field} (h : ∀ f ∈ fs, f.InRange) :
    listOfJson? (listToJson fs) = some fs :=
  list?_array fun f hf => ofJson?_toJson (h f hf)

/-- **Form definitions survive being written.**  The text of a list of fields is a document,
    and it is read back as the list, if the counts of the fields fit in their words and the
    texts of their doubles are numerals that stand for these. -/
theorem read?_listToJson {fs : List Field} (hrange : ∀ f ∈ fs, f.InRange)
    (hdoubles : ∀ f ∈ fs, ∀ d ∈ f.doubles, d.Legible) :
    (Json.read? (Bytes.ofText (listToJson fs).print)).bind listOfJson? = some fs := by
  have hfits : Fits Double.Legible 5 (listToJson fs) :=
    fits_array fun f hf => fits_toJson (hrange f hf) (hdoubles f hf)
  rw [Json.read?_print (hfits.mono (by decide)), Option.bind_some, listOfJson?_listToJson hrange]

/-- A form with a bound of 1.5, a leap day and a table with choices. -/
def bookingForm : List Field :=
  let guests : NumberOptions :=
    { rule := some .range
      length := ⟨some .atMost, some Size.largest⟩
      range := { min := some ⟨false, 3 * Nat.pow 2 1073⟩ } }
  let arrival : DateOptions :=
    { rule := some .between
      first := some ⟨2024, 2, 29, by decide⟩
      closed := [.saturday, .sunday] }
  let rooms : TableOptions :=
    { fewestRows := 2
      growing := true
      columns := [{ title := "Größe", kind := .dropdown ["S", "M"] }, { kind := .shortText }] }
  [{ id := "n", kind := .number guests },
    { id := "d", title := "Day \"of\" arrival", required := false, kind := .date arrival },
    { id := "t", kind := .table rooms }]

theorem read?_listToJson_bookingForm :
    (∀ f ∈ bookingForm, f.InRange) ∧ (∀ f ∈ bookingForm, ∀ d ∈ f.doubles, d.Legible) ∧
      (Json.read? (Bytes.ofText (listToJson bookingForm).print)).bind listOfJson? =
        some bookingForm := by
  have hrange : ∀ f ∈ bookingForm, f.InRange := by
    simp only [bookingForm, List.forall_mem_cons]
    refine ⟨?_, trivial, ⟨by decide, ?_⟩, by simp⟩
    · rintro n ⟨⟩
      exact Nat.le_refl _
    · rintro n ⟨⟩
  have hdoubles : ∀ f ∈ bookingForm, ∀ d ∈ f.doubles, d.Legible := by
    simp only [bookingForm, List.forall_mem_cons, doubles, FieldKind.doubles]
    refine ⟨?_, by simp⟩
    simp only [Option.toList, List.append_nil, List.forall_mem_singleton]
    unfold Double.Legible
    decide +kernel
  exact ⟨hrange, hdoubles, read?_listToJson hrange hdoubles⟩

end Field

end FormIntake
