import DesignTokens.Proofs.Decimal.WholeNumber
import DesignTokens.Proofs.Outcome
import DesignTokens.Proofs.Token.Same
import DesignTokens.Token.Decoding

/-!
# Values read back

A value that is written as plain data is read back as the same value, provided that its numbers
are finite and that its type is the one it is read for.  Fields without a value are left out by
the writer, and the reader takes a missing field for one without a value; the two are matched field
by field through `OrderedMap.find?`.  A map from modes is told from a single value by the absence of
one key, which is why none of the modes may be named `$ref`.
-/

namespace DesignTokens

/-! ## Fields -/

/-- A field that may be left out has its own key only. -/
@[simp] lemma find?_textField (key k : String) (s : Option String) :
    OrderedMap.find? key (textField k s) = if k = key then s.map Json.text else none := by
  cases s with
  | none => exact (ite_self none).symm
  | some _ => rfl

/-- A number that may be left out has its own key only. -/
@[simp] lemma find?_numberField (key k : String) (x : Option Float) :
    OrderedMap.find? key (numberField k x) = if k = key then x.map Json.number else none := by
  cases x with
  | none => exact (ite_self none).symm
  | some _ => rfl

/-- A number is written as a floating-point number or as an integer. -/
lemma Json.number_cases (x : Float) : Json.number x = .float x ∨ ∃ n, Json.number x = .int n := by
  unfold Json.number
  cases (Exact.ofFloat x).toInt? with
  | none => exact Or.inl rfl
  | some n => exact Or.inr ⟨n, rfl⟩

namespace Schema

variable {f : List (String × Json)} {keys : List String}

/-- A field with one key. -/
@[simp] lemma find?_one (key : String) (f : List (String × Json)) :
    find? [key] f = OrderedMap.find? key f := by
  rw [find?, List.findSome?_cons]
  cases OrderedMap.find? key f <;> rfl

/-- A field with two keys is the one under the first key, or else under the second. -/
@[simp] lemma find?_two (first second : String) (f : List (String × Json)) :
    find? [first, second] f = (OrderedMap.find? first f).or (OrderedMap.find? second f) := by
  rw [← find?_one second, find?, List.findSome?_cons]
  cases OrderedMap.find? first f <;> rfl

/-- A text that may be missing is read back. -/
lemma withDefault_text? {s : Option String} (h : find? keys f = s.map Json.text) :
    withDefault f keys none (optional text) = .ok s := by
  unfold withDefault
  rw [h]
  cases s <;> rfl

/-- A number is not null. -/
lemma optional_number (x : Float) :
    optional float (Json.number x) = (float (Json.number x)).map some := by
  rcases Json.number_cases x with hnumber | ⟨n, hnumber⟩
  · rw [hnumber]
    rfl
  · rw [hnumber]
    rfl

/-- A number that may be missing is read back. -/
lemma withDefault_number? {x : Option Float} (h : find? keys f = x.map Json.number)
    (hx : ∀ y ∈ x.toList, isFiniteNumber y = true) :
    ∃ y, withDefault f keys none (optional float) = .ok y ∧
      Option.Rel (fun a b => (a == b) = true) y x := by
  unfold withDefault
  rw [h]
  cases x with
  | none => exact ⟨none, rfl, .none⟩
  | some x =>
    obtain ⟨y, hread, hsame⟩ := float_number (hx x List.mem_cons_self)
    refine ⟨some y, ?_, .some hsame⟩
    show optional float (Json.number x) = _
    rw [optional_number, hread]
    rfl

/-- A number that is there is read back. -/
lemma withDefault_number {x default : Float} (h : find? keys f = some (Json.number x))
    (hx : isFiniteNumber x = true) :
    ∃ y, withDefault f keys default float = .ok y ∧ (y == x) = true := by
  unfold withDefault
  rw [h]
  exact float_number hx

/-- A text that must be there is read back. -/
lemma required_text {s : String} (h : find? keys f = some (.text s)) :
    required f keys text = .ok s := by
  unfold required
  rw [h]
  rfl

/-- A number that must be there is read back. -/
lemma required_number {x : Float} (h : find? keys f = some (Json.number x))
    (hx : isFiniteNumber x = true) : ∃ y, required f keys float = .ok y ∧ (y == x) = true := by
  unfold required
  rw [h]
  exact float_number hx

end Schema

/-! ## Composite values -/

/-- A typography value is read back. -/
theorem Typography.read_toJson (t : Typography)
    (h : ∀ x ∈ (Literal.typography t).numbers, isFiniteNumber x = true) :
    ∃ u, Typography.read t.toJson = .ok u ∧ u.Same t := by
  unfold Typography.toJson
  generalize hf : [("fontFamily", Json.text t.fontFamily), ("fontSize", .number t.fontSize),
      ("fontWeight", .number t.fontWeight)] ++ textField "fontStyle" t.fontStyle ++
    textField "lineHeight" t.lineHeight ++ textField "letterSpacing" t.letterSpacing ++
    textField "textDecoration" t.textDecoration ++ textField "textTransform" t.textTransform = f
  have hfamily : Schema.find? ["fontFamily", "font_family"] f = some (.text t.fontFamily) := by
    simp [← hf, OrderedMap.find?]
  have hsize : Schema.find? ["fontSize", "font_size"] f = some (.number t.fontSize) := by
    simp [← hf, OrderedMap.find?]
  have hweight : Schema.find? ["fontWeight", "font_weight"] f = some (.number t.fontWeight) := by
    simp [← hf, OrderedMap.find?]
  have hstyle : Schema.find? ["fontStyle", "font_style"] f = t.fontStyle.map .text := by
    simp [← hf, OrderedMap.find?]
  have hheight : Schema.find? ["lineHeight", "line_height"] f = t.lineHeight.map .text := by
    simp [← hf, OrderedMap.find?]
  have hspacing : Schema.find? ["letterSpacing", "letter_spacing"] f =
      t.letterSpacing.map .text := by
    simp [← hf, OrderedMap.find?]
  have hdecoration : Schema.find? ["textDecoration", "text_decoration"] f =
      t.textDecoration.map .text := by
    simp [← hf, OrderedMap.find?]
  have htransform : Schema.find? ["textTransform", "text_transform"] f =
      t.textTransform.map .text := by
    simp [← hf, OrderedMap.find?]
  obtain ⟨size, hsizeRead, hsizeSame⟩ := Schema.required_number hsize
    (h t.fontSize List.mem_cons_self)
  obtain ⟨weight, hweightRead, hweightSame⟩ := @Schema.withDefault_number _ _ _ 400.0 hweight
    (h t.fontWeight (List.mem_cons_of_mem _ List.mem_cons_self))
  refine ⟨⟨t.fontFamily, size, weight, t.fontStyle, t.lineHeight, t.letterSpacing,
    t.textDecoration, t.textTransform⟩, ?_, rfl, hsizeSame, hweightSame, rfl, rfl, rfl, rfl, rfl⟩
  have hrecord : Schema.fields (.object f) = .ok f := rfl
  unfold Typography.read
  rw [bind_of_ok hrecord, bind_of_ok (Schema.required_text hfamily), bind_of_ok hsizeRead,
    bind_of_ok hweightRead, bind_of_ok (Schema.withDefault_text? hstyle),
    bind_of_ok (Schema.withDefault_text? hheight),
    bind_of_ok (Schema.withDefault_text? hspacing),
    bind_of_ok (Schema.withDefault_text? hdecoration),
    bind_of_ok (Schema.withDefault_text? htransform)]
  rfl

/-- A shadow value is read back. -/
theorem BoxShadow.read_toJson (s : BoxShadow)
    (h : ∀ x ∈ (Literal.shadow s).numbers, isFiniteNumber x = true) :
    ∃ u, BoxShadow.read s.toJson = .ok u ∧ u.Same s := by
  unfold BoxShadow.toJson
  generalize hf : [("offsetX", Json.number s.offsetX), ("offsetY", .number s.offsetY),
    ("blur", .number s.blur), ("spread", .number s.spread), ("color", .text s.color),
    ("type", .text (if s.inner then "innerShadow" else "dropShadow"))] = f
  have hx : Schema.find? ["offsetX", "offset_x"] f = some (.number s.offsetX) := by
    simp [← hf, OrderedMap.find?]
  have hy : Schema.find? ["offsetY", "offset_y"] f = some (.number s.offsetY) := by
    simp [← hf, OrderedMap.find?]
  have hblur : Schema.find? ["blur"] f = some (.number s.blur) := by
    simp [← hf, OrderedMap.find?]
  have hspread : Schema.find? ["spread"] f = some (.number s.spread) := by
    simp [← hf, OrderedMap.find?]
  have hcolor : Schema.find? ["color"] f = some (.text s.color) := by
    simp [← hf, OrderedMap.find?]
  have htype : Schema.find? ["type"] f =
      some (.text (if s.inner then "innerShadow" else "dropShadow")) := by
    simp [← hf, OrderedMap.find?]
  obtain ⟨x, hxRead, hxSame⟩ := @Schema.withDefault_number _ _ _ 0.0 hx
    (h s.offsetX (by simp [Literal.numbers]))
  obtain ⟨y, hyRead, hySame⟩ := @Schema.withDefault_number _ _ _ 0.0 hy
    (h s.offsetY (by simp [Literal.numbers]))
  obtain ⟨blur, hblurRead, hblurSame⟩ := @Schema.withDefault_number _ _ _ 0.0 hblur
    (h s.blur (by simp [Literal.numbers]))
  obtain ⟨spread, hspreadRead, hspreadSame⟩ := @Schema.withDefault_number _ _ _ 0.0 hspread
    (h s.spread (by simp [Literal.numbers]))
  have htypeRead : Schema.withDefault f ["type"] false (Schema.choice innerShadow?) =
      .ok s.inner := by
    unfold Schema.withDefault
    rw [htype]
    cases s.inner <;> rfl
  refine ⟨⟨x, y, blur, spread, s.color, s.inner⟩, ?_, hxSame, hySame, hblurSame, hspreadSame,
    rfl, rfl⟩
  have hrecord : Schema.fields (.object f) = .ok f := rfl
  unfold BoxShadow.read
  rw [bind_of_ok hrecord, bind_of_ok hxRead, bind_of_ok hyRead, bind_of_ok hblurRead,
    bind_of_ok hspreadRead, bind_of_ok (Schema.required_text hcolor), bind_of_ok htypeRead]
  rfl

/-- A grid direction is known by its name. -/
lemma GridDirection.ofName?_name (d : GridDirection) : GridDirection.ofName? d.name = some d := by
  cases d <;> rfl

/-- A grid value is read back. -/
theorem GridTracks.read_toJson (g : GridTracks)
    (h : ∀ x ∈ (Literal.grid g).numbers, isFiniteNumber x = true) :
    ∃ u, GridTracks.read g.toJson = .ok u ∧ u.Same g := by
  unfold GridTracks.toJson
  generalize hf : [("pattern", Json.text g.pattern.name)] ++ numberField "count" g.count ++
    numberField "sectionSize" g.sectionSize ++
    [("gutterSize", .number g.gutterSize), ("offset", .number g.offset)] = f
  have hpattern : Schema.find? ["pattern"] f = some (.text g.pattern.name) := by
    simp [← hf, OrderedMap.find?]
  have hcount : Schema.find? ["count"] f = g.count.map .number := by
    simp [← hf, OrderedMap.find?]
  have hsection : Schema.find? ["sectionSize", "section_size"] f = g.sectionSize.map .number := by
    simp [← hf, OrderedMap.find?]
  have hgutter : Schema.find? ["gutterSize", "gutter_size"] f = some (.number g.gutterSize) := by
    simp [← hf, OrderedMap.find?]
  have hoffset : Schema.find? ["offset"] f = some (.number g.offset) := by
    simp [← hf, OrderedMap.find?]
  have hpatternRead : Schema.required f ["pattern"] (Schema.choice GridDirection.ofName?) =
      .ok g.pattern := by
    unfold Schema.required
    rw [hpattern]
    show Schema.require (GridDirection.ofName? g.pattern.name) = _
    rw [GridDirection.ofName?_name]
    rfl
  have hnumbers : (Literal.grid g).numbers =
      g.count.toList ++ g.sectionSize.toList ++ [g.gutterSize, g.offset] := rfl
  rw [hnumbers] at h
  obtain ⟨count, hcountRead, hcountSame⟩ := Schema.withDefault_number? hcount
    (fun y hy => h y (List.mem_append_left _ (List.mem_append_left _ hy)))
  obtain ⟨size, hsizeRead, hsizeSame⟩ := Schema.withDefault_number? hsection
    (fun y hy => h y (List.mem_append_left _ (List.mem_append_right _ hy)))
  obtain ⟨gutter, hgutterRead, hgutterSame⟩ := @Schema.withDefault_number _ _ _ 0.0 hgutter
    (h g.gutterSize (List.mem_append_right _ List.mem_cons_self))
  obtain ⟨offset, hoffsetRead, hoffsetSame⟩ := @Schema.withDefault_number _ _ _ 0.0 hoffset
    (h g.offset (List.mem_append_right _ (List.mem_cons_of_mem _ List.mem_cons_self)))
  refine ⟨⟨g.pattern, count, size, gutter, offset⟩, ?_, rfl, hcountSame, hsizeSame, hgutterSame,
    hoffsetSame⟩
  have hrecord : Schema.fields (.object f) = .ok f := rfl
  unfold GridTracks.read
  rw [bind_of_ok hrecord, bind_of_ok hpatternRead, bind_of_ok hcountRead, bind_of_ok hsizeRead,
    bind_of_ok hgutterRead, bind_of_ok hoffsetRead]
  rfl

/-! ## Values of tokens -/

/-- A literal value without fields. -/
def Literal.IsPlain : Literal → Prop
  | bool _ | number _ | text _ => True
  | typography _ | shadow _ | grid _ => False

/-- A literal value that tokens of a type may have: one without fields, or the one of the type. -/
def Literal.Fits (type : TokenType) : Literal → Prop
  | bool _ | number _ | text _ => True
  | typography _ => type = .typography
  | shadow _ => type = .shadow
  | grid _ => type = .grid

/-- A value that tokens of a type may have.  Values by mode have no fields, and belong to a type
whose values have none. -/
def TokenValue.Fits (type : TokenType) : TokenValue → Prop
  | flat (.literal l) => l.Fits type
  | flat (.reference _) => True
  | perMode modes => type.marker? = none ∧ ∀ e ∈ modes, ∀ l, e.2 = .literal l → l.IsPlain

/-- A number is read back as a value. -/
lemma FlatValue.read_number (type : TokenType) {x : Float} (h : isFiniteNumber x = true) :
    ∃ y, FlatValue.read type (.number x) = .ok (.literal (.number y)) ∧ (y == x) = true := by
  obtain ⟨y, hread, hsame⟩ := Schema.float_number h
  refine ⟨y, ?_, hsame⟩
  rcases Json.number_cases x with hnumber | ⟨n, hnumber⟩
  · rw [hnumber] at hread ⊢
    cases hread
    rfl
  · rw [hnumber] at hread ⊢
    show asTokenValue ((Schema.float (.int n)).map _) = _
    rw [hread]
    rfl

/-- A value that is not an object is read as a single one. -/
lemma TokenValue.read_of_not_object (type : TokenType) {j : Json} (h : ∀ f, j ≠ .object f) :
    TokenValue.read type j = (FlatValue.read type j).map TokenValue.flat := by
  cases j with
  | object f => exact absurd rfl (h f)
  | _ => rfl

/-- A single value without fields is read back. -/
lemma FlatValue.read_plain (type : TokenType) (v : FlatValue)
    (hplain : ∀ l, v = .literal l → l.IsPlain)
    (hfinite : ∀ x ∈ v.numbers, isFiniteNumber x = true) :
    ∃ w, FlatValue.read type v.toJson = .ok w ∧ w.Same v := by
  cases v with
  | reference path => exact ⟨.reference path, rfl, .reference path⟩
  | literal l =>
    have hl := hplain l rfl
    cases l with
    | bool b => exact ⟨.literal (.bool b), rfl, .literal (.bool b)⟩
    | text s => exact ⟨.literal (.text s), rfl, .literal (.text s)⟩
    | number x =>
      obtain ⟨y, hread, hsame⟩ := FlatValue.read_number type (hfinite x List.mem_cons_self)
      exact ⟨.literal (.number y), hread, .literal (.number hsame)⟩
    | typography t => exact hl.elim
    | shadow s => exact hl.elim
    | grid g => exact hl.elim

/-- An object with the key of a type is read as a single value of the type. -/
lemma TokenValue.read_marked {type : TokenType} {key : String} {f : List (String × Json)}
    {l : Literal} (hmarker : type.marker? = some key) (hkey : OrderedMap.has f key = true)
    (hreference : OrderedMap.find? "$ref" f = none)
    (hread : readLiteralObject type f = .ok l) :
    TokenValue.read type (.object f) = .ok (.flat (.literal l)) := by
  have hmodes : isModeMap type f = false := by
    unfold isModeMap
    rw [hmarker]
    dsimp only
    rw [hkey]
    exact Bool.and_false _
  have hsingle : FlatValue.read type (.object f) = .ok (.literal l) := by
    unfold FlatValue.read
    dsimp only
    rw [hreference, hread]
    rfl
  show (if isModeMap type f then (readEntries (FlatValue.read type) f).map TokenValue.perMode
    else (FlatValue.read type (.object f)).map TokenValue.flat) = _
  rw [hmodes, hsingle]
  rfl

/-- Entries that are read one by one are read together. -/
lemma readEntries_map {α β : Type} {read : Json → Except Fault α} {write : β → Json}
    {R : α → β → Prop} {entries : OrderedMap β}
    (h : ∀ e ∈ entries, ∃ a, read (write e.2) = .ok a ∧ R a e.2) :
    ∃ result : OrderedMap α, readEntries read (entries.map fun e => (e.1, write e.2)) = .ok result ∧
      result.Matches R entries := by
  induction entries with
  | nil => exact ⟨[], rfl, .nil⟩
  | cons e rest ih =>
    obtain ⟨a, hread, hrelated⟩ := h e List.mem_cons_self
    obtain ⟨result, hrest, hmatches⟩ := ih fun d hd => h d (List.mem_cons_of_mem _ hd)
    refine ⟨(e.1, a) :: result, ?_, .cons ⟨rfl, hrelated⟩ hmatches⟩
    rw [List.map_cons, readEntries, bind_of_ok hread, bind_of_ok hrest]
    rfl

/-- Values by mode are read back, if no mode is named as a reference is. -/
lemma TokenValue.read_perMode {type : TokenType} {modes : OrderedMap FlatValue}
    (hmarker : type.marker? = none) (hplain : ∀ e ∈ modes, ∀ l, e.2 = .literal l → l.IsPlain)
    (hfinite : ∀ e ∈ modes, ∀ x ∈ e.2.numbers, isFiniteNumber x = true)
    (hnames : "$ref" ∉ modes.keys) :
    ∃ w, TokenValue.read type (TokenValue.perMode modes).toJson = .ok w ∧
      w.Same (.perMode modes) := by
  have hkeys : "$ref" ∉ OrderedMap.keys (modes.map fun e => (e.1, e.2.toJson)) := by
    unfold OrderedMap.keys
    rw [List.map_map]
    exact hnames
  have hmodes : isModeMap type (modes.map fun e => (e.1, e.2.toJson)) = true := by
    unfold isModeMap OrderedMap.has
    rw [hmarker, OrderedMap.find?_eq_none hkeys]
    rfl
  obtain ⟨result, hread, hmatches⟩ := readEntries_map fun e he =>
    FlatValue.read_plain type e.2 (hplain e he) (hfinite e he)
  refine ⟨.perMode result, ?_, .perMode hmatches⟩
  show (if isModeMap type (modes.map fun e => (e.1, e.2.toJson)) then
      (readEntries (FlatValue.read type) (modes.map fun e => (e.1, e.2.toJson))).map
        TokenValue.perMode
    else (FlatValue.read type (.object (modes.map fun e => (e.1, e.2.toJson)))).map
      TokenValue.flat) = _
  rw [hmodes, hread]
  rfl

/-- A single value without fields is read back as the value of a token. -/
lemma TokenValue.read_flatPlain (type : TokenType) (l : Literal) (hplain : l.IsPlain)
    (hfinite : ∀ x ∈ l.numbers, isFiniteNumber x = true) :
    ∃ w, TokenValue.read type l.toJson = .ok w ∧ w.Same (.flat (.literal l)) := by
  obtain ⟨w, hread, hsame⟩ := FlatValue.read_plain type (.literal l)
    (fun k hk => FlatValue.literal.inj hk ▸ hplain) hfinite
  refine ⟨.flat w, ?_, .flat hsame⟩
  have hobject : ∀ f, l.toJson ≠ .object f := by
    intro f
    cases l with
    | bool b => exact Json.noConfusion
    | text s => exact Json.noConfusion
    | number x =>
      show Json.number x ≠ _
      rcases Json.number_cases x with hnumber | ⟨n, hnumber⟩
      · rw [hnumber]
        exact Json.noConfusion
      · rw [hnumber]
        exact Json.noConfusion
    | typography t => exact hplain.elim
    | shadow s => exact hplain.elim
    | grid g => exact hplain.elim
  rw [TokenValue.read_of_not_object type hobject]
  show (FlatValue.read type (FlatValue.literal l).toJson).map _ = _
  rw [hread]
  rfl

/-- A composite value is read back as the value of a token of its type. -/
lemma TokenValue.read_flatComposite {type : TokenType} {l : Literal} (hfits : l.Fits type)
    (hcomposite : ¬ l.IsPlain) (hfinite : ∀ x ∈ l.numbers, isFiniteNumber x = true) :
    ∃ w, TokenValue.read type l.toJson = .ok w ∧ w.Same (.flat (.literal l)) := by
  cases l with
  | bool b => exact absurd trivial hcomposite
  | text s => exact absurd trivial hcomposite
  | number x => exact absurd trivial hcomposite
  | typography t =>
    have htype : type = .typography := hfits
    obtain ⟨u, hread, hsame⟩ := Typography.read_toJson t hfinite
    refine ⟨.flat (.literal (.typography u)), ?_, .flat (.literal (.typography hsame))⟩
    rw [htype]
    refine @TokenValue.read_marked _ "fontFamily" _ _ rfl rfl ?_ (map_eq_ok.mpr ⟨u, hread, rfl⟩)
    simp [OrderedMap.find?]
  | shadow s =>
    have htype : type = .shadow := hfits
    obtain ⟨u, hread, hsame⟩ := BoxShadow.read_toJson s hfinite
    refine ⟨.flat (.literal (.shadow u)), ?_, .flat (.literal (.shadow hsame))⟩
    rw [htype]
    exact @TokenValue.read_marked _ "color" _ _ rfl rfl rfl (map_eq_ok.mpr ⟨u, hread, rfl⟩)
  | grid g =>
    have htype : type = .grid := hfits
    obtain ⟨u, hread, hsame⟩ := GridTracks.read_toJson g hfinite
    refine ⟨.flat (.literal (.grid u)), ?_, .flat (.literal (.grid hsame))⟩
    rw [htype]
    refine @TokenValue.read_marked _ "pattern" _ _ rfl rfl ?_ (map_eq_ok.mpr ⟨u, hread, rfl⟩)
    simp [OrderedMap.find?]

/-- The value of a token is read back, if no mode is named as a reference is. -/
theorem Token.read_value {t : Token} (hfits : t.value.Fits t.type) (hfinite : t.IsFinite)
    (hnames : "$ref" ∉ t.modeNames) :
    ∃ w, TokenValue.read t.type t.value.toJson = .ok w ∧ w.Same t.value := by
  obtain ⟨type, value, description, origin⟩ := t
  cases value with
  | flat v =>
    cases v with
    | reference path => exact ⟨.flat (.reference path), rfl, .flat (.reference path)⟩
    | literal l =>
      by_cases hplain : l.IsPlain
      · exact TokenValue.read_flatPlain type l hplain hfinite
      · exact TokenValue.read_flatComposite hfits hplain hfinite
  | perMode modes =>
    exact TokenValue.read_perMode hfits.1 hfits.2
      (fun e he x hx => hfinite x (List.mem_flatMap.mpr ⟨e, he, hx⟩)) hnames

end DesignTokens
