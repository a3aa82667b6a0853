import ParamCheck.Profile.Load
import ParamCheck.Proofs.Profile.Declared
import ParamCheck.Proofs.Report
import ParamCheck.Proofs.Value.Writable

/-!
# Which documents declare a profile

A document declares a profile if it has no keys but its two sections, each of which is empty or a mapping
from names to directives (`Profile.Acceptable`). The profile then has the entries of the sections, and any
other document is refused with a fault of the declaration, unless a key or a name in it cannot be written
(`Profile.ofDocument_cases`). A section counts as empty whatever it is, as long as it is not truthy: an
empty sequence or a zero declares nothing as well (`Profile.section_not_always_mapping`).
-/

namespace ParamCheck

/-- Directives, of which there are none where nothing stands. -/
def Value.orEmpty : Value → Value
  | null => dict []
  | v => v

namespace Profile

variable {p : Profile} {source name : String} {data entries : Entries Value} {v : Value}

/-- What stands in a section of a document, null if it is missing. -/
def sectionValue (data : Entries Value) (name : String) : Value := (data.lookup (.str name)).getD .null

/-- The entries of a section, none unless it is a mapping. -/
def entriesOf : Value → Entries Value
  | .dict entries => entries
  | _ => []

/-- Entries have names that can be written, are not empty and different as texts, and directives or
nothing. -/
structure AcceptableNames (entries : Entries Value) : Prop where
  writable : ∀ e ∈ entries, e.1.writable = true
  named : ∀ e ∈ entries, e.1.text ≠ ""
  apart : (entries.map fun e => e.1.text).Nodup
  specs : ∀ e ∈ entries, e.2.orEmpty.isMapping = true

/-- A section is empty or a mapping with acceptable entries. -/
structure AcceptableSection (v : Value) : Prop where
  kind : v.isMapping = true ∨ v.truthy = false
  entries : AcceptableNames (entriesOf v)

/-- A mapping has no keys but the two sections, which are acceptable. -/
structure AcceptableEntries (data : Entries Value) : Prop where
  keys : ∀ k ∈ data.keys, k = .str "fields" ∨ k = .str "mixins"
  fields : AcceptableSection (sectionValue data "fields")
  mixins : AcceptableSection (sectionValue data "mixins")

/-- The entries of a document, none if it is empty. -/
def documentEntries? : Value → Option (Entries Value)
  | .null => some []
  | .dict data => some data
  | _ => none

/-- The keys of a document and the names in its sections. -/
def keysAndNames (data : Entries Value) : List Value :=
  data.keys ++ (entriesOf (sectionValue data "fields")).keys
    ++ (entriesOf (sectionValue data "mixins")).keys

/-- A document is empty or an acceptable mapping. -/
def Acceptable (document : Value) : Prop :=
  ∃ data, documentEntries? document = some data ∧ AcceptableEntries data

/-- The entries of a section with their names as texts and with directives for all of them. -/
def completed (entries : Entries Value) : Entries Value := entries.map fun e => (.str e.1.text, e.2.orEmpty)

/-- The profile of a document, which has the entries of the sections. -/
def ofEntries (source : String) (data : Entries Value) : Profile where
  name := (Route.ofText source).stem
  fields := completed (entriesOf (sectionValue data "fields"))
  mixins := completed (entriesOf (sectionValue data "mixins"))

/-! ## Keys -/

/-- The keys of a document are its sections unless there is one that is not supported. -/
theorem unsupported_eq_nil_iff :
    unsupported data = [] ↔ ∀ k ∈ data.keys, k = .str "fields" ∨ k = .str "mixins" := by
  have hsection : ∀ k : Value, (!sectionNames.any fun name => k.same (.str name)) = false ↔
      k = .str "fields" ∨ k = .str "mixins" := by
    intro k
    have hsame : ∀ s : String, k.same (.str s) = true ↔ k = .str s := fun s =>
      ⟨Value.eq_str_of_same, fun h => h ▸ Value.same_self _⟩
    rw [Bool.not_eq_false', List.any_eq_true]
    simp [sectionNames, hsame]
  rw [unsupported, List.filter_eq_nil_iff]
  simp only [Bool.not_eq_true, hsection]

/-- A key that cannot be written is not supported. -/
theorem mem_unsupported_of_not_writable {k : Value} (hk : k ∈ data.keys) (h : k.writable = false) :
    k ∈ unsupported data := by
  refine List.mem_filter.2 ⟨hk, ?_⟩
  rw [Bool.not_eq_true', List.any_eq_false]
  intro name _ hsame
  rw [Value.eq_str_of_same hsame] at h
  cases h

/-- The texts of keys are as many as the keys. -/
theorem keyTexts_of_writable {keys : List Value} (h : ∀ k ∈ keys, k.writable = true) :
    ∃ texts, keyTexts keys = .ok texts ∧ (texts.isEmpty = true ↔ keys = []) := by
  refine ⟨_, by rw [keyTexts, Value.mapM_write h]; rfl, ?_⟩
  rw [List.isEmpty_iff, ← List.length_eq_zero_iff, List.length_mergeSort, List.length_map,
    List.length_eq_zero_iff]

/-! ## Sections -/

/-- The entries of a section are those of a mapping, and none if it is empty. -/
theorem sectionEntries_eq (source : String) (data : Entries Value) (name : String) :
    sectionEntries source data name =
      if (sectionValue data name).isMapping = true ∨ (sectionValue data name).truthy = false then
        .ok (entriesOf (sectionValue data name))
      else .error (.sectionNotMapping source name) := by
  unfold sectionEntries
  rw [← sectionValue]
  cases sectionValue data name with
  | dict entries => rfl
  | _ =>
    simp only [Value.isMapping, entriesOf, Bool.false_eq_true, false_or]
    split <;> simp_all

/-- An entry is declared under the text of its name. -/
theorem declareEntry_eq (define : Profile → Value → Value → Except Fault Profile) (p : Profile)
    (name spec : Value) :
    declareEntry define p name spec = name.write.bind fun s => define p (.str s) spec.orEmpty := by
  cases spec <;> rfl

/-- Entries whose names can be written are declared under the texts of their names. -/
theorem defineAll_declareEntry {define : Profile → Value → Value → Except Fault Profile}
    (h : ∀ e ∈ entries, e.1.writable = true) :
    ∀ p, defineAll (declareEntry define) entries p = defineAll define (completed entries) p := by
  induction entries with
  | nil => exact fun _ => rfl
  | cons e rest ih =>
    obtain ⟨hname, hrest⟩ := List.forall_mem_cons.1 h
    obtain ⟨name, spec⟩ := e
    intro p
    have hfirst : declareEntry define p name spec = define p (.str name.text) spec.orEmpty := by
      rw [declareEntry_eq, Value.write_of_writable hname]
      rfl
    change defineAll _ _ p = defineAll define ((.str name.text, spec.orEmpty) :: completed rest) p
    rw [defineAll, defineAll, hfirst]
    cases define p (.str name.text) spec.orEmpty with
    | ok q => exact ih hrest q
    | error e => rfl

/-- The kinds of declarations that a document can make. -/
structure Documented (mk : Value → Value → Declaration) : Prop where
  what : ∃ w, ∀ name spec, (mk name spec).what = w
  name : ∀ name spec, (mk name spec).name = name
  isMapping : ∀ name spec, (mk name spec).isMapping = spec.isMapping

theorem documented_field : Documented .field where
  what := ⟨.field, fun _ _ => rfl⟩
  name _ _ := rfl
  isMapping _ _ := rfl

theorem documented_mixin : Documented .mixin where
  what := ⟨.mixin, fun _ _ => rfl⟩
  name _ _ := rfl
  isMapping _ _ := rfl

variable {mk : Value → Value → Declaration}

/-- A declaration whose name is a text is sound if that is not empty and the directives are a mapping. -/
theorem Documented.sound_iff (hmk : Documented mk) {s : String} {spec : Value} :
    (mk (.str s) spec).Sound ↔ s ≠ "" ∧ spec.isMapping = true := by
  constructor
  · rintro ⟨⟨t, hname, ht⟩, hmapping⟩
    rw [hmk.name] at hname
    obtain rfl := Value.str.inj hname
    exact ⟨ht, hmk.isMapping .. ▸ hmapping⟩
  · rintro ⟨hs, hmapping⟩
    exact ⟨⟨s, hmk.name .., hs⟩, (hmk.isMapping ..).trans hmapping⟩

/-- Declarations of one kind have the same name if their names are the same text. -/
theorem Documented.same_iff (hmk : Documented mk) {s t : String} {spec spec' : Value} :
    (mk (.str s) spec).Same (mk (.str t) spec') ↔ s = t := by
  obtain ⟨w, hwhat⟩ := hmk.what
  rw [Declaration.Same, hwhat, hwhat, hmk.name, hmk.name]
  simp [Value.key?, Value.scalarKey?]

/-- Acceptable entries can be added to a profile without declarations of their kind, and only such. -/
theorem Documented.addable_iff (hmk : Documented mk) (hwritable : ∀ e ∈ entries, e.1.writable = true)
    (hnew : ∀ name spec, p.declares (mk name spec) = false) :
    p.Addable ((completed entries).map fun e => mk e.1 e.2) ↔ AcceptableNames entries := by
  have hsound : (∀ d ∈ (completed entries).map fun e => mk e.1 e.2, d.Sound) ↔
      ∀ e ∈ entries, e.1.text ≠ "" ∧ e.2.orEmpty.isMapping = true := by
    simp only [completed, List.map_map, List.forall_mem_map, Function.comp_apply, hmk.sound_iff]
  have hapart : Apart ((completed entries).map fun e => mk e.1 e.2) ↔
      (entries.map fun e => e.1.text).Nodup := by
    simp only [Apart, completed, List.Nodup, List.pairwise_map, hmk.same_iff, ne_eq]
  constructor
  · rintro ⟨hs, ha, -⟩
    exact ⟨hwritable, fun e he => (hsound.1 hs e he).1, hapart.1 ha, fun e he => (hsound.1 hs e he).2⟩
  · rintro ⟨-, hnamed, ha, hspecs⟩
    refine ⟨hsound.2 fun e he => ⟨hnamed e he, hspecs e he⟩, hapart.2 ha, fun d hd => ?_⟩
    obtain ⟨e, -, rfl⟩ := List.mem_map.1 hd
    exact hnew e.1 e.2

/-- If the name of an entry cannot be written, the entry cannot be declared, or one before it. -/
theorem defineAll_of_not_writable (mk : Value → Value → Declaration)
    {define : Profile → Value → Value → Except Fault Profile}
    (hdefine : ∀ p name spec, define p name spec = p.declare (mk name spec))
    (h : ∃ e ∈ entries, e.1.writable = false) :
    ∀ p, ∃ q e, defineAll (declareEntry define) entries p = (q, some e) ∧
      (e.kind = .declaration ∨ e = .badValue) := by
  induction entries with
  | nil =>
    obtain ⟨e, he, -⟩ := h
    cases he
  | cons e rest ih =>
    obtain ⟨name, spec⟩ := e
    intro p
    cases hname : name.writable with
    | false =>
      refine ⟨p, .badValue, ?_, .inr rfl⟩
      rw [defineAll, declareEntry_eq, Value.write_of_not_writable hname]
      rfl
    | true =>
      obtain ⟨f, hf, hbad⟩ := h
      have hfirst : declareEntry define p name spec = p.declare (mk (.str name.text) spec.orEmpty) := by
        rw [declareEntry_eq, Value.write_of_writable hname, ← hdefine]
        rfl
      rw [defineAll, hfirst]
      cases hdeclare : p.declare (mk (.str name.text) spec.orEmpty) with
      | error e => exact ⟨p, e, rfl, .inl (kind_declare hdeclare)⟩
      | ok q =>
        rcases List.mem_cons.1 hf with rfl | hf
        · cases hname.symm.trans hbad
        · exact ih ⟨f, hf, hbad⟩ q

/-- The declarations that a section makes. -/
def declareSection (define : Profile → Value → Value → Except Fault Profile) (source : String)
    (data : Entries Value) (name : String) (p : Profile) : Except Fault Profile := do
  let entries ← sectionEntries source data name
  complete (defineAll (declareEntry define) entries p)

/-- An acceptable section is declared as a whole, and any other one is refused. -/
theorem Documented.declareSection_cases (hmk : Documented mk)
    (hnew : ∀ name spec, p.declares (mk name spec) = false)
    (source : String) (data : Entries Value) (name : String) :
    (AcceptableSection (sectionValue data name) ∧
      declareSection (fun p name spec => p.declare (mk name spec)) source data name p =
        .ok (p.extend ((completed (entriesOf (sectionValue data name))).map fun e => mk e.1 e.2))) ∨
    (¬AcceptableSection (sectionValue data name) ∧
      ∃ e, declareSection (fun p name spec => p.declare (mk name spec)) source data name p = .error e ∧
        (e.kind = .declaration ∨
          e = .badValue ∧ ∃ k ∈ (entriesOf (sectionValue data name)).keys, k.writable = false)) := by
  rw [declareSection, sectionEntries_eq]
  split
  · next hkind =>
    change (AcceptableSection _ ∧ complete _ = _) ∨ (¬AcceptableSection _ ∧ ∃ e, complete _ = _ ∧ _)
    by_cases hwritable : ∀ e ∈ entriesOf (sectionValue data name), e.1.writable = true
    · rw [defineAll_declareEntry hwritable, defineAll_eq _ mk fun _ _ _ => rfl]
      by_cases hnames : AcceptableNames (entriesOf (sectionValue data name))
      · refine .inl ⟨⟨hkind, hnames⟩, ?_⟩
        rw [declareAll_of_addable ((hmk.addable_iff hwritable hnew).2 hnames)]
        rfl
      · refine .inr ⟨fun h => hnames h.entries, ?_⟩
        obtain ⟨q, e, hfault, hdeclaration⟩ :=
          declareAll_of_not_addable fun h => hnames ((hmk.addable_iff hwritable hnew).1 h)
        exact ⟨e, by rw [hfault]; rfl, .inl hdeclaration⟩
    · -- Some name cannot be written.
      have hbad : ∃ e ∈ entriesOf (sectionValue data name), e.1.writable = false := by
        simpa using hwritable
      refine .inr ⟨fun h => hwritable h.entries.writable, ?_⟩
      obtain ⟨q, e, hfault, he⟩ := defineAll_of_not_writable mk (fun _ _ _ => rfl) hbad p
      obtain ⟨f, hf, hname⟩ := hbad
      exact ⟨e, by rw [hfault]; rfl, he.imp_right fun hvalue =>
        ⟨hvalue, f.1, List.mem_map_of_mem hf, hname⟩⟩
  · next hkind => exact .inr ⟨fun h => hkind h.kind, _, rfl, .inl rfl⟩

/-! ## Documents -/

theorem ofSections_eq (source : String) (data : Entries Value) :
    ofSections source data = (keyTexts (unsupported data)).bind fun others =>
      if others.isEmpty then
        (declareSection defineField source data "fields" { name := (Route.ofText source).stem }).bind
          (declareSection defineMixin source data "mixins")
      else .error (.unsupportedKeys source others) := by
  unfold ofSections
  cases keyTexts (unsupported data) with
  | error e => rfl
  | ok others =>
    cases others with
    | cons text rest => rfl
    | nil =>
      unfold declareSection
      cases sectionEntries source data "fields" <;> rfl

/-- A document with a key that cannot be written is refused with a fault of a value. -/
theorem ofSections_of_not_writable (source : String) (h : ∃ k ∈ data.keys, k.writable = false) :
    ofSections source data = .error .badValue := by
  obtain ⟨k, hk, hbad⟩ := h
  rw [ofSections_eq, keyTexts,
    Value.mapM_write_of_not_writable ⟨k, mem_unsupported_of_not_writable hk hbad, hbad⟩]
  rfl

/-- A profile without declarations takes over the fields of a document. -/
theorem extend_completed_field (name : String) (entries : Entries Value) :
    ({ name } : Profile).extend ((completed entries).map fun e => .field e.1 e.2) =
      { name, fields := completed entries } := by
  simp [extend, List.filterMap_map, Function.comp_def]

/-- A profile with nothing but fields takes over the mixins of a document. -/
theorem extend_completed_mixin (name : String) (fields entries : Entries Value) :
    ({ name, fields } : Profile).extend ((completed entries).map fun e => .mixin e.1 e.2) =
      { name, fields, mixins := completed entries } := by
  simp [extend, List.filterMap_map, Function.comp_def]

/-- The sections of an acceptable mapping give the profile with its entries. Those of any other one are
refused with a fault of the declaration, or of a key or a name that cannot be written. -/
theorem ofSections_cases (source : String) (data : Entries Value) :
    (AcceptableEntries data ∧ ofSections source data = .ok (ofEntries source data)) ∨
      (¬AcceptableEntries data ∧ ∃ e, ofSections source data = .error e ∧
        (e.kind = .declaration ∨ e = .badValue ∧ ∃ k ∈ keysAndNames data, k.writable = false)) := by
  have hfields := documented_field.declareSection_cases (p := { name := (Route.ofText source).stem })
    (fun _ _ => rfl) source data "fields"
  have hmixins := documented_mixin.declareSection_cases
    (p := { name := (Route.ofText source).stem, fields := completed (entriesOf (sectionValue data "fields")) })
    (fun _ _ => rfl) source data "mixins"
  rw [extend_completed_field] at hfields
  rw [extend_completed_mixin] at hmixins
  by_cases hkeys : ∀ k ∈ data.keys, k.writable = true
  · have hunsupported : ∀ k ∈ unsupported data, k.writable = true :=
      fun k hk => hkeys k (List.mem_filter.1 hk).1
    obtain ⟨others, hothers, hnone⟩ := keyTexts_of_writable hunsupported
    rw [ofSections_eq, hothers]
    dsimp only [Except.bind]
    split
    · next hempty =>
      have hsupported := unsupported_eq_nil_iff.1 (hnone.1 hempty)
      obtain ⟨hf, hdeclared⟩ | ⟨hf, e, hfault, he⟩ := hfields
      · change declareSection defineField _ _ _ _ = _ at hdeclared
        rw [hdeclared]
        -- The mixins are added to the profile that has the fields.
        obtain ⟨hm, hdeclared⟩ | ⟨hm, e, hfault, he⟩ := hmixins
        · exact .inl ⟨⟨hsupported, hf, hm⟩, hdeclared⟩
        · exact .inr ⟨fun h => hm h.mixins, e, hfault, he.imp_right <| And.imp_right <|
            Exists.imp fun _ => And.imp_left <| List.mem_append_right _⟩
      · change declareSection defineField _ _ _ _ = _ at hfault
        refine .inr ⟨fun h => hf h.fields, e, ?_, he.imp_right <| And.imp_right <|
          Exists.imp fun _ => And.imp_left fun hk =>
            List.mem_append_left _ (List.mem_append_right _ hk)⟩
        rw [hfault]
    · next hsome =>
      exact .inr ⟨fun h => hsome (hnone.2 (unsupported_eq_nil_iff.2 h.keys)), _, rfl, .inl rfl⟩
  · have hbad : ∃ k ∈ data.keys, k.writable = false := by simpa using hkeys
    refine .inr ⟨fun h => hkeys fun k hk => ?_, _, ofSections_of_not_writable source hbad, .inr ⟨rfl, ?_⟩⟩
    · rcases h.keys k hk with rfl | rfl <;> rfl
    · obtain ⟨k, hk, hwritable⟩ := hbad
      exact ⟨k, List.mem_append_left _ (List.mem_append_left _ hk), hwritable⟩

theorem ofDocument_of_entries {document : Value} (h : documentEntries? document = some data) :
    ofDocument source document = ofSections source data := by
  cases document with
  | null =>
    obtain rfl := Option.some.inj h
    rfl
  | dict entries =>
    obtain rfl := Option.some.inj h
    rfl
  | _ => cases h

/-- An acceptable document declares the profile with the entries of its sections. Any other one is refused
with a fault of the declaration, or else with a fault of a value, and then a key or a name in it cannot be
written. -/
theorem ofDocument_cases (source : String) (document : Value) :
    (∃ data, documentEntries? document = some data ∧ AcceptableEntries data ∧
      ofDocument source document = .ok (ofEntries source data)) ∨
    (¬Acceptable document ∧ ∃ e, ofDocument source document = .error e ∧
      (e.kind = .declaration ∨ e = .badValue ∧
        ∃ data, documentEntries? document = some data ∧ ∃ k ∈ keysAndNames data, k.writable = false)) := by
  cases hdocument : documentEntries? document with
  | some data =>
    rw [ofDocument_of_entries hdocument]
    obtain ⟨hdata, hok⟩ | ⟨hdata, e, hfault, he⟩ := ofSections_cases source data
    · exact .inl ⟨data, rfl, hdata, hok⟩
    · refine .inr ⟨?_, e, hfault, he.imp_right <| And.imp_right fun hbad => ⟨data, rfl, hbad⟩⟩
      rintro ⟨data', hdocument', hdata'⟩
      obtain rfl := Option.some.inj (hdocument.symm.trans hdocument')
      exact hdata hdata'
  | none =>
    have hnone : ¬Acceptable document := by
      rintro ⟨data, hsome, -⟩
      cases hdocument.symm.trans hsome
    refine .inr ⟨hnone, ?_⟩
    cases document with
    | null => cases hdocument
    | dict data => cases hdocument
    | _ => exact ⟨.profileNotMapping source, rfl, .inl rfl⟩

/-- A document whose section of fields is an empty sequence. -/
def noFields : Entries Value := [(.str "fields", .list [])]

/-- It is not refused, although the section is no mapping. -/
theorem section_not_always_mapping : ¬∀ (source : String) (data : Entries Value) (name : String),
    name ∈ sectionNames → (sectionValue data name = .null ∨ (sectionValue data name).isMapping = true) ∨
      ∃ e, ofDocument source (.dict data) = .error e ∧ e.kind = .declaration := by
  intro h
  have hnames : AcceptableNames [] :=
    ⟨List.forall_mem_nil _, List.forall_mem_nil _, List.nodup_nil, List.forall_mem_nil _⟩
  have hdata : AcceptableEntries noFields :=
    ⟨by simp [noFields, Entries.keys], ⟨.inr rfl, hnames⟩, ⟨.inr rfl, hnames⟩⟩
  obtain (hnull | hmapping) | ⟨e, hfault, -⟩ := h "<profile>" noFields "fields" (by decide)
  · cases hnull
  · cases hmapping
  · obtain ⟨-, hok⟩ | ⟨hrefused, -⟩ := ofSections_cases "<profile>" noFields
    · cases hok.symm.trans hfault
    · exact hrefused hdata

end Profile
end ParamCheck
