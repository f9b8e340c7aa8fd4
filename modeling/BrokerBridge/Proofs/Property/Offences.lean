import BrokerBridge.Proofs.Property.RoundTrip
import BrokerBridge.Word

/-!
# Sets that are not encoded

An entry of a set offends by its tag, by the shape of its value, by a value that is too long or too
large, or by its key. A set is encoded if no entry offends. Otherwise the error tells of the first
entry that does, and of the first thing that is wrong with it.
-/

namespace BrokerBridge

abbrev PropertyEntry := ByteArray × HostValue × PropertyTag

/-- The least and the greatest number of so many bits, one of which is the sign. -/
def Word.signedBounds (bits : Nat) : Int × Int :=
  (-(Word.count (bits - 1) : Int), (Word.count (bits - 1) : Int) - 1)

def IntWidth.bits : IntWidth → Nat
  | short => 16
  | int32 => 32
  | int64 => 64

private theorem IntWidth.min_eq (width : IntWidth) : width.min =
    (Word.signedBounds width.bits).1 := by
  cases width <;> rfl

private theorem IntWidth.max_eq (width : IntWidth) : width.max =
    (Word.signedBounds width.bits).2 := by
  cases width <;> rfl

namespace Property

/-! ## Entries that can be sent -/

def Within (bits : Nat) (n : Int) : Prop :=
  (Word.signedBounds bits).1 ≤ n ∧ n ≤ (Word.signedBounds bits).2

instance (bits : Nat) (n : Int) : Decidable (Within bits n) :=
  inferInstanceAs (Decidable (_ ∧ _))

/-- The values that go with a tag, by the number that the tag is. -/
inductive GoesWith : HostValue → Int → Prop where
  | bool (flag : Bool) : GoesWith (.bool flag) 1
  | char (data : ByteArray) (single : data.size = 1) : GoesWith (.bytes data) 2
  | short (n : Int) (fits : Within 16 n) : GoesWith (.int n) 3
  | int32 (n : Int) (fits : Within 32 n) : GoesWith (.int n) 4
  | int64 (n : Int) (fits : Within 64 n) : GoesWith (.int n) 5
  | text (text : String) : GoesWith (.str text) 6
  | textBytes (data : ByteArray) : GoesWith (.bytes data) 6
  | binary (data : ByteArray) : GoesWith (.bytes data) 7

structure WellTyped (e : PropertyEntry) : Prop where
  named : e.1.size ≠ 0
  typed : GoesWith e.2.1 e.2.2.code

/-! ## Offences -/

/-- The shapes of the values that are sent as a type. An error asks for the first of them. -/
def shapes : PropertyType → List HostShape
  | .undefined => []
  | .bool => [.bool]
  | .char | .binary => [.bytes]
  | .short | .int32 | .int64 => [.int]
  | .string => [.str, .bytes]

/-- What is wrong with an entry, as the error that says so. -/
inductive Offence : PropertyEntry → PropertyError → Prop where
  | unsupported (key : ByteArray) (value : HostValue) (tag : PropertyTag)
      (outside : ¬(1 ≤ tag.code ∧ tag.code ≤ 7)) :
      Offence (key, value, tag) (.unsupportedType key tag)
  | shape (key : ByteArray) (value : HostValue) (t : PropertyType) (expected : HostShape)
      (first : (shapes t).head? = some expected) (other : value.shape ∉ shapes t) :
      Offence (key, value, .ofType t) (.typeMismatch key value.shape expected)
  | length (key data : ByteArray) (notSingle : data.size ≠ 1) :
      Offence (key, .bytes data, .ofType .char) (.charWidth key data.size)
  | range (key : ByteArray) (n : Int) (width : IntWidth) (outside : ¬Within width.bits n) :
      Offence (key, .int n, .ofType width.type) (.outOfRange key width)
  | unnamed (key : ByteArray) (value : HostValue) (tag : PropertyTag) (empty : key.size = 0) :
      Offence (key, value, tag) (.rejected key Code.invalidArgument)

/-- The place of an error in the order in which errors are looked for: by the tag, by the shape of
the value, by its length or range, by the key. -/
def place : PropertyError → Nat
  | .unsupportedType .. => 0
  | .typeMismatch .. => 1
  | .charWidth .. | .outOfRange .. => 2
  | .rejected .. | .overrideWithoutValue _ => 3

/-- The error tells of the first thing that is wrong with an entry. -/
structure Reports (e : PropertyEntry) (error : PropertyError) : Prop where
  offence : Offence e error
  first : ∀ other, Offence e other → place error ≤ place other

/-! ## One entry -/

variable {key : ByteArray} {value : HostValue} {tag : PropertyTag} {error : PropertyError}
  {e : PropertyEntry}

theorem goesWith_iff :
    GoesWith value tag.code ↔ ∃ t wire, tag = .ofType t ∧ Typed value t wire := by
  constructor
  · intro h
    obtain ⟨code⟩ := tag
    cases h with
    | bool flag => exact ⟨.bool, _, rfl, .bool flag⟩
    | char data single =>
      obtain ⟨⟨l⟩⟩ := data
      obtain ⟨byte, rfl⟩ := List.length_eq_one_iff.mp single
      exact ⟨.char, _, rfl, .char byte⟩
    | short n fits => exact ⟨.short, _, rfl, .int .short n fits.1 fits.2⟩
    | int32 n fits => exact ⟨.int32, _, rfl, .int .int32 n fits.1 fits.2⟩
    | int64 n fits => exact ⟨.int64, _, rfl, .int .int64 n fits.1 fits.2⟩
    | text text => exact ⟨.string, _, rfl, .text text⟩
    | textBytes data => exact ⟨.string, _, rfl, .textBytes data⟩
    | binary data => exact ⟨.binary, _, rfl, .binary data⟩
  · rintro ⟨t, wire, rfl, h⟩
    cases h with
    | bool flag => exact .bool flag
    | char byte => exact .char _ rfl
    | int width n hmin hmax =>
      rw [IntWidth.min_eq] at hmin
      rw [IntWidth.max_eq] at hmax
      cases width with
      | short => exact .short n ⟨hmin, hmax⟩
      | int32 => exact .int32 n ⟨hmin, hmax⟩
      | int64 => exact .int64 n ⟨hmin, hmax⟩
    | text text => exact .text text
    | textBytes data => exact .textBytes data
    | binary data => exact .binary data

/-- A tag between the lowest and the highest supported one declares a type that has values. -/
theorem exists_type_of_supported (h : 1 ≤ tag.code ∧ tag.code ≤ 7) :
    ∃ t expected, tag = .ofType t ∧ (shapes t).head? = some expected := by
  obtain ⟨code⟩ := tag
  have hcode : code = 1 ∨ code = 2 ∨ code = 3 ∨ code = 4 ∨ code = 5 ∨ code = 6 ∨ code = 7 := by
    simp only at h
    omega
  obtain rfl | rfl | rfl | rfl | rfl | rfl | rfl := hcode
  · exact ⟨.bool, _, rfl, rfl⟩
  · exact ⟨.char, _, rfl, rfl⟩
  · exact ⟨.short, _, rfl, rfl⟩
  · exact ⟨.int32, _, rfl, rfl⟩
  · exact ⟨.int64, _, rfl, rfl⟩
  · exact ⟨.string, _, rfl, rfl⟩
  · exact ⟨.binary, _, rfl, rfl⟩

private theorem encodeValue_of_unsupported (h : ¬(1 ≤ tag.code ∧ tag.code ≤ 7)) :
    encodeValue key value tag = .error (.unsupportedType key tag) := by
  cases htype : tag.type? with
  | none => simp [encodeValue, htype]
  | some t =>
    obtain rfl := eq_ofType_of_type? htype
    cases t with
    | undefined => simp [encodeValue]
    | _ => exact absurd (by decide) h

private theorem encodeValue_of_other_shape {t : PropertyType} {expected : HostShape}
    (hfirst : (shapes t).head? = some expected) (hother : value.shape ∉ shapes t) :
    encodeValue key value (.ofType t) = .error (.typeMismatch key value.shape expected) := by
  cases t <;> cases value <;> simp_all [encodeValue, narrow, shapes, HostValue.shape]

/-- Whatever is wrong with an entry but its key, its value is not encoded for that. -/
theorem Offence.encodeValue_eq (h : Offence (key, value, tag) error) (hplace : place error < 3) :
    encodeValue key value tag = .error error := by
  cases h with
  | unsupported _ _ _ outside => exact encodeValue_of_unsupported outside
  | shape _ _ t expected first other => exact encodeValue_of_other_shape first other
  | length _ data notSingle => simp [encodeValue, notSingle]
  | range _ n width outside =>
    have hnarrow : narrow key width (.int n) = .error (.outOfRange key width) := by
      refine if_neg ?_
      rwa [width.min_eq, width.max_eq]
    cases width <;> simpa [encodeValue, IntWidth.type] using hnarrow
  | unnamed => simp [place] at hplace

private theorem exists_offence (h : ¬GoesWith value tag.code) (key : ByteArray) :
    ∃ error, Offence (key, value, tag) error ∧ place error < 3 := by
  by_cases hsupported : 1 ≤ tag.code ∧ tag.code ≤ 7
  · obtain ⟨t, expected, rfl, hfirst⟩ := exists_type_of_supported hsupported
    by_cases hshape : value.shape ∈ shapes t
    · -- a value of the right shape is wrong only as a character or as a number
      cases t <;> cases value <;> simp [shapes, HostValue.shape] at hshape
      case bool.bool flag => exact absurd (.bool flag) h
      case char.bytes data =>
        exact ⟨_, .length key data fun single => h (.char data single), by simp [place]⟩
      case short.int n =>
        exact ⟨_, .range key n .short fun fits => h (.short n fits), by simp [place]⟩
      case int32.int n =>
        exact ⟨_, .range key n .int32 fun fits => h (.int32 n fits), by simp [place]⟩
      case int64.int n =>
        exact ⟨_, .range key n .int64 fun fits => h (.int64 n fits), by simp [place]⟩
      case string.str text => exact absurd (.text text) h
      case string.bytes data => exact absurd (.textBytes data) h
      case binary.bytes data => exact absurd (.binary data) h
    · exact ⟨_, .shape key value t expected hfirst hshape, by simp [place]⟩
  · exact ⟨_, .unsupported key value tag hsupported, by simp [place]⟩

theorem exists_wire (h : GoesWith value tag.code) (key : ByteArray) :
    ∃ wire, encodeValue key value tag = .ok wire := by
  obtain ⟨t, wire, htyped⟩ := goesWith_iff.mp h
  exact ⟨wire, encodeValue_eq_ok_iff.mpr ⟨t, htyped⟩⟩

/-- What is looked at last is the key. -/
theorem Offence.of_place (h : Offence (key, value, tag) error) (hplace : ¬place error < 3) :
    key.size = 0 ∧ error = .rejected key Code.invalidArgument := by
  cases h with
  | unnamed _ _ _ empty => exact ⟨empty, rfl⟩
  | _ => simp [place] at hplace

private theorem Offence.of_goesWith (h : Offence (key, value, tag) error)
    (hgoes : GoesWith value tag.code) :
    key.size = 0 ∧ error = .rejected key Code.invalidArgument := by
  obtain ⟨wire, hwire⟩ := exists_wire hgoes key
  by_cases hplace : place error < 3
  · have herror := h.encodeValue_eq hplace
    rw [hwire] at herror
    cases herror
  · exact h.of_place hplace

private theorem Offence.reports (h : Offence e error) (hplace : place error < 3) :
    Reports e error := by
  refine ⟨h, fun other hother => ?_⟩
  obtain ⟨key, value, tag⟩ := e
  by_cases hplace' : place other < 3
  · have hsame := h.encodeValue_eq hplace
    rw [hother.encodeValue_eq hplace'] at hsame
    cases hsame
    exact Nat.le_refl _
  · omega

private theorem wellTyped_or_reports (e : PropertyEntry) :
    WellTyped e ∨ ∃ error, Reports e error := by
  obtain ⟨key, value, tag⟩ := e
  by_cases hgoes : GoesWith value tag.code
  · by_cases hkey : key.size = 0
    · refine .inr ⟨_, .unnamed key value tag hkey, fun other hother => ?_⟩
      exact Nat.le_of_eq (congrArg place (hother.of_goesWith hgoes).2.symm)
    · exact .inl ⟨hkey, hgoes⟩
  · obtain ⟨error, hoffence, hplace⟩ := exists_offence hgoes key
    exact .inr ⟨error, hoffence.reports hplace⟩

/-! ## One entry after another -/

variable {w : WireProperties} {l : List PropertyEntry}

private theorem encodeInto_cons_of_wellTyped (h : WellTyped e) (w : WireProperties) :
    ∃ w', ∀ l, encodeInto w (e :: l) = encodeInto w' l := by
  obtain ⟨key, value, tag⟩ := e
  obtain ⟨wire, hwire⟩ := exists_wire h.typed key
  have hkey : key.isEmpty = false := by simpa [ByteArray.isEmpty] using h.named
  refine ⟨(w.set key wire).2, fun l => ?_⟩
  simp [encodeInto, hwire, WireProperties.set, hkey]

private theorem encodeInto_cons_of_reports (h : Reports e error) (w : WireProperties)
    (l : List PropertyEntry) : encodeInto w (e :: l) = .error error := by
  obtain ⟨key, value, tag⟩ := e
  by_cases hplace : place error < 3
  · simp [encodeInto, h.offence.encodeValue_eq hplace]
  · -- what is reported last is all that is wrong
    have hgoes : GoesWith value tag.code := by
      by_contra hnot
      obtain ⟨other, hother, hbefore⟩ := exists_offence hnot key
      exact hplace (Nat.lt_of_le_of_lt (h.first other hother) hbefore)
    obtain ⟨wire, hwire⟩ := exists_wire hgoes key
    obtain ⟨hempty, rfl⟩ := h.offence.of_goesWith hgoes
    have hkey : key.isEmpty = true := by simpa [ByteArray.isEmpty] using hempty
    simp [encodeInto, hwire, WireProperties.set, hkey, Code.invalidArgument, Code.success]

private theorem encodeInto_append_of_wellTyped {before : List PropertyEntry}
    (h : ∀ e ∈ before, WellTyped e) (w : WireProperties) :
    ∃ w', ∀ l, encodeInto w (before ++ l) = encodeInto w' l := by
  induction before generalizing w with
  | nil => exact ⟨w, fun l => rfl⟩
  | cons e rest ih =>
    simp only [List.forall_mem_cons] at h
    obtain ⟨w₁, hfirst⟩ := encodeInto_cons_of_wellTyped h.1 w
    obtain ⟨w', hrest⟩ := ih h.2 w₁
    exact ⟨w', fun l => (hfirst (rest ++ l)).trans (hrest l)⟩

def ReportsFirst (l : List PropertyEntry) (error : PropertyError) : Prop :=
  ∃ before e after, l = before ++ e :: after ∧ (∀ x ∈ before, WellTyped x) ∧ Reports e error

theorem wellTyped_or_reportsFirst (l : List PropertyEntry) :
    (∀ e ∈ l, WellTyped e) ∨ ∃ error, ReportsFirst l error := by
  induction l with
  | nil => simp
  | cons e rest ih =>
    rcases wellTyped_or_reports e with hfirst | ⟨error, hreports⟩
    · rcases ih with hrest | ⟨error, before, e', after, rfl, hbefore, hreports⟩
      · exact .inl (List.forall_mem_cons.mpr ⟨hfirst, hrest⟩)
      · refine .inr ⟨error, e :: before, e', after, rfl, ?_, hreports⟩
        exact List.forall_mem_cons.mpr ⟨hfirst, hbefore⟩
    · exact .inr ⟨error, [], e, rest, rfl, by simp, hreports⟩

theorem encodeInto_of_wellTyped (h : ∀ e ∈ l, WellTyped e) (w : WireProperties) :
    ∃ w', encodeInto w l = .ok w' := by
  obtain ⟨w', hall⟩ := encodeInto_append_of_wellTyped h w
  refine ⟨w', ?_⟩
  simpa [encodeInto] using hall []

theorem encodeInto_of_reportsFirst (h : ReportsFirst l error) (w : WireProperties) :
    encodeInto w l = .error error := by
  obtain ⟨before, e, after, rfl, hbefore, hreports⟩ := h
  obtain ⟨w', hsent⟩ := encodeInto_append_of_wellTyped hbefore w
  rw [hsent]
  exact encodeInto_cons_of_reports hreports w' after

/-- A number that is out of range was declared to be of the width that the error names. -/
theorem Reports.outOfRange {width : IntWidth} (h : Reports e (.outOfRange key width)) :
    ∃ n, e = (key, .int n, .ofType width.type) ∧ ¬Within width.bits n := by
  obtain ⟨hoffence, _⟩ := h
  cases hoffence with
  | range _ n _ outside => exact ⟨n, rfl, outside⟩

/-- A set is encoded exactly if all its entries have a key and a value that goes with their tag. The
error tells of the first entry that has not, and of its tag before the shape of its value, of that
before its length or range, and of that before its key. A number out of range is reported with the
bounds of the width that was declared. -/
theorem encode_reports_first (s : PropertySet) :
    ((∃ w, encode s = .ok w) ↔ ∀ e ∈ s.entries, WellTyped e) ∧
    (∀ error, encode s = .error error ↔ ReportsFirst s.entries error) ∧
    ∀ key width, encode s = .error (.outOfRange key width) →
      ∃ n least most, (key, .int n, .ofType width.type) ∈ s.entries ∧ ¬Within width.bits n ∧
        Word.signedBounds width.bits = (least, most) ∧
        (PropertyError.outOfRange key width).message =
          s!"Property {Utf8.lossy key} value must be between [{least}, {most}], inclusive" := by
  have hok (h : ∀ e ∈ s.entries, WellTyped e) : ∃ w, encode s = .ok w :=
    encodeInto_of_wellTyped h .empty
  have herror {error : PropertyError} (h : ReportsFirst s.entries error) :
      encode s = .error error := encodeInto_of_reportsFirst h .empty
  have hfirst (error : PropertyError) : encode s = .error error ↔ ReportsFirst s.entries error := by
    refine ⟨fun h => ?_, herror⟩
    rcases wellTyped_or_reportsFirst s.entries with hall | ⟨error', hreports⟩
    · obtain ⟨w, hw⟩ := hok hall
      rw [hw] at h
      cases h
    · rw [herror hreports] at h
      cases h
      exact hreports
  refine ⟨⟨fun ⟨w, hw⟩ => ?_, hok⟩, hfirst, fun key width h => ?_⟩
  · rcases wellTyped_or_reportsFirst s.entries with hall | ⟨error, hreports⟩
    · exact hall
    · rw [herror hreports] at hw
      cases hw
  · obtain ⟨before, e, after, hentries, _, hreports⟩ := (hfirst _).mp h
    obtain ⟨n, rfl, houtside⟩ := hreports.outOfRange
    refine ⟨n, width.min, width.max, by simp [hentries], houtside, ?_, rfl⟩
    rw [width.min_eq, width.max_eq]

/-- After a flag comes a number without a key that is out of range, and then a tag that names no
type, although its lower half would. -/
def offendingSet : PropertySet :=
  .ofList [(⟨#[0x61]⟩, .bool true, .ofType .bool), (.empty, .int 32768, .ofType .short),
    (⟨#[0x62]⟩, .bool true, ⟨4294967297⟩)]

theorem encode_reports_first_offending :
    encode offendingSet = .error (.outOfRange .empty .short) ∧
    ∃ least most, Word.signedBounds 16 = (least, most) ∧
      (PropertyError.outOfRange .empty .short).message =
        s!"Property {Utf8.lossy .empty} value must be between [{least}, {most}], inclusive" := by
  obtain ⟨_, hfirst, hrange⟩ := encode_reports_first offendingSet
  have hreports : Reports (.empty, .int 32768, .ofType .short) (.outOfRange .empty .short) :=
    (Offence.range .empty 32768 .short (by decide)).reports (by simp [place])
  have herror : encode offendingSet = .error (.outOfRange .empty .short) := by
    refine (hfirst _).mpr ⟨[(⟨#[0x61]⟩, .bool true, .ofType .bool)], _, _, rfl, ?_, hreports⟩
    simp only [List.forall_mem_singleton]
    exact ⟨by decide, .bool true⟩
  obtain ⟨_, least, most, _, _, hbounds, hmessage⟩ := hrange .empty .short herror
  exact ⟨herror, least, most, hbounds, hmessage⟩

end Property

end BrokerBridge
